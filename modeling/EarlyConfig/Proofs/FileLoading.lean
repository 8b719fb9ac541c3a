import EarlyConfig.Disk
import EarlyConfig.FileSet.Load
import EarlyConfig.Proofs.LookUps
import EarlyConfig.Proofs.Text

/-! Loading files one after another. A file goes by its file name, or by its path if that name is
taken, and nobody looks whether the path is taken too. The main statement
(`FileSet.loadEach_keeps`) says exactly when that matters: among different paths, a file replaces
an earlier one if and only if its path is the bare file name of one that was loaded before. In
every other case it comes last and the files before it stay as they are. -/
namespace EarlyConfig

/-! ### Putting an entry -/

namespace Entries

variable {κ α : Type} [DecidableEq κ]

theorem put_of_mem {k : κ} (a : α) {es : List (κ × α)} (h : k ∈ keys es) :
    ∃ front old back, es = front ++ (k, old) :: back ∧ put k a es = front ++ (k, a) :: back := by
  induction es with
  | nil => cases h
  | cons e rest ih =>
    obtain ⟨k', b⟩ := e
    by_cases hk : k' = k
    · subst hk
      exact ⟨[], b, rest, rfl, if_pos rfl⟩
    · have hrest : k ∈ keys rest := (List.mem_cons.1 h).resolve_left (Ne.symm hk)
      obtain ⟨front, old, back, hes, hput⟩ := ih hrest
      refine ⟨(k', b) :: front, old, back, by rw [hes, List.cons_append], ?_⟩
      rw [put, if_neg hk, hput, List.cons_append]

end Entries

/-! ### File names -/

namespace Path

/-- What it is to be a file name. -/
theorem of_fileName? {path name : String} (h : fileName? path = some name) :
    '/' ∉ name.toList ∧ name ≠ "" ∧ name ≠ "." ∧ name ≠ ".." := by
  have hlast : ((Text.pieces '/' path).filter fun name => name ≠ "" && name ≠ ".").getLast? =
      some name ∧ name ≠ ".." := by
    unfold fileName? at h
    split at h
    · cases h
    · rename_i hne
      exact ⟨h, fun heq => hne (heq ▸ h)⟩
  obtain ⟨hpiece, hkept⟩ := List.mem_filter.1 (List.mem_of_getLast? hlast.1)
  have hname : name ≠ "" ∧ name ≠ "." := by simpa using hkept
  exact ⟨Text.not_mem_of_mem_pieces hpiece, hname.1, hname.2, hlast.2⟩

/-- The path that is a file name only has that file name. -/
theorem fileName?_fileName {path name : String} (h : fileName? path = some name) :
    fileName? name = some name := by
  obtain ⟨hslash, hempty, hdot, hdots⟩ := of_fileName? h
  unfold fileName?
  rw [Text.pieces_of_not_mem hslash]
  simp [hempty, hdot, hdots]

end Path

namespace FileSet

/-! ### One load -/

/-- What loading a file makes of what was read. -/
def addRead (files : FileSet) (path : String) (content : Except IoError ByteArray) :
    Except LoadError FileSet :=
  (content.mapError .io).bind (files.add path)

theorem loadFile_eq [Monad m] [LawfulMonad m] (fs : FileSystem m) (files : FileSet)
    (path : String) : files.loadFile fs path = files.addRead path <$> fs.read path := by
  rw [loadFile, map_eq_pure_bind]
  refine bind_congr fun content => ?_
  cases content <;> rfl

theorem addRead_eq_ok {files files' : FileSet} {path : String}
    {content : Except IoError ByteArray} (h : files.addRead path content = .ok files') :
    ∃ bytes body, content = .ok bytes ∧ parse path bytes = .ok body ∧
      files' = Entries.put (files.nameFor path) body files := by
  cases content with
  | error e => cases h
  | ok bytes =>
    change files.add path bytes = .ok files' at h
    unfold add at h
    cases hbody : parse path bytes with
    | error e => rw [hbody] at h; cases h
    | ok body =>
      rw [hbody] at h
      cases h
      exact ⟨bytes, body, rfl, hbody, rfl⟩

/-- The file name if that is free, and else the path. -/
theorem nameFor_cases (files : FileSet) (path : String) :
    files.nameFor path = (Path.fileName? path).getD path ∧
        (Path.fileName? path).getD path ∉ files.names ∨
      files.nameFor path = path ∧ (Path.fileName? path).getD path ∈ files.names := by
  have hmem : Entries.contains ((Path.fileName? path).getD path) files = true ↔
      (Path.fileName? path).getD path ∈ files.names := by
    rw [Entries.contains, Option.isSome_iff_exists]
    exact Entries.mem_keys.symm
  unfold nameFor
  by_cases h : (Path.fileName? path).getD path ∈ files.names
  · exact .inr ⟨if_pos (hmem.2 h), h⟩
  · exact .inl ⟨if_neg fun hc => h (hmem.1 hc), h⟩

theorem nameFor_eq (files : FileSet) (path : String) :
    Path.fileName? path = some (files.nameFor path) ∨ files.nameFor path = path := by
  rcases nameFor_cases files path with ⟨hname, -⟩ | ⟨hname, -⟩
  · cases h : Path.fileName? path with
    | none => exact .inr (by rw [hname, h, Option.getD_none])
    | some name => exact .inl (by rw [hname, h, Option.getD_some])
  · exact .inr hname

theorem nameFor_new {files : FileSet} {path : String} (h : path ∉ files.names) :
    files.nameFor path ∉ files.names := by
  rcases nameFor_cases files path with ⟨hname, hfree⟩ | ⟨hname, -⟩
  · rwa [hname]
  · rwa [hname]

/-! ### A sequence of loads -/

/-- Loads files one after another, and goes on after a failure. -/
def loadEach [Monad m] (fs : FileSystem m) (files : FileSet) :
    List String → m (List (Except LoadError FileSet))
  | [] => return []
  | path :: rest => do
    let result ← files.loadFile fs path
    return result :: (← loadEach fs (result.toOption.getD files) rest)

/-- One load of a sequence. -/
structure Call where
  path : String
  content : Except IoError ByteArray
  before : FileSet
  result : Except LoadError FileSet

namespace Call

def after (call : Call) : FileSet :=
  call.result.toOption.getD call.before

def Succeeds (call : Call) : Prop :=
  ∃ files, call.result = .ok files

theorem succeeds_iff {call : Call} : call.Succeeds ↔ call.result.isOk = true := by
  unfold Succeeds
  cases call.result <;> simp [Except.isOk, Except.toBool]

instance (call : Call) : Decidable call.Succeeds :=
  decidable_of_iff _ succeeds_iff.symm

theorem after_of_ok {call : Call} {files : FileSet} (h : call.result = .ok files) :
    call.after = files := by
  simp [after, h, Except.toOption]

theorem after_of_fails {call : Call} (h : ¬ call.Succeeds) : call.after = call.before := by
  cases hresult : call.result with
  | error e => simp [after, hresult, Except.toOption]
  | ok files => exact (h ⟨files, hresult⟩).elim

end Call

def call (files : FileSet) (read : String × Except IoError ByteArray) : Call :=
  ⟨read.1, read.2, files, files.addRead read.1 read.2⟩

/-- The loads of a sequence, given the paths with what is read from them. -/
def history (files : FileSet) : List (String × Except IoError ByteArray) → List Call
  | [] => []
  | read :: rest => files.call read :: history (files.call read).after rest

/-- The loads depend on the file system by what is read from it only. -/
theorem loadEach_eq [Monad m] [LawfulMonad m] (fs : FileSystem m) (files : FileSet)
    (paths : List String) :
    loadEach fs files paths = (fun reads => (history files reads).map Call.result) <$>
      paths.mapM fun path => (path, ·) <$> fs.read path := by
  induction paths generalizing files with
  | nil => simp [loadEach, history]
  | cons path rest ih =>
    simp only [loadEach, loadFile_eq, List.mapM_cons, ih, map_eq_pure_bind, bind_assoc, pure_bind]
    rfl

theorem map_path_history (files : FileSet) (reads : List (String × Except IoError ByteArray)) :
    (history files reads).map Call.path = reads.map (·.1) := by
  induction reads generalizing files with
  | nil => rfl
  | cons read rest ih => rw [history, List.map_cons, List.map_cons, ih, call]

/-- A file that was loaded has the path as its file name. -/
def Shadowed (earlier : List Call) (path : String) : Prop :=
  ∃ call ∈ earlier, call.Succeeds ∧ Path.fileName? call.path = some path

theorem shadowed_append_singleton {earlier : List Call} {c : Call} {path : String} :
    Shadowed (earlier ++ [c]) path ↔
      Shadowed earlier path ∨ c.Succeeds ∧ Path.fileName? c.path = some path := by
  simp [Shadowed, or_and_right, exists_or]

/-- The names of the files, as far as the loads that they come from tell them. -/
structure Recorded (earlier : List Call) (files : FileSet) : Prop where
  /-- A file goes by the file name or the path of one that was loaded. -/
  origin : ∀ name ∈ files.names, Shadowed earlier name ∨ name ∈ earlier.map Call.path
  /-- The file name of one that was loaded is taken. -/
  taken : ∀ name, Shadowed earlier name → name ∈ files.names

namespace Recorded

theorem empty : Recorded [] [] :=
  ⟨fun _ h => (List.not_mem_nil h).elim, fun _ ⟨_, h, _⟩ => (List.not_mem_nil h).elim⟩

/-- What was known of a name is known after one more load. -/
theorem origin_append {earlier : List Call} {files : FileSet} (h : Recorded earlier files)
    (c : Call) {name : String} (hname : name ∈ files.names) :
    Shadowed (earlier ++ [c]) name ∨ name ∈ (earlier ++ [c]).map Call.path := by
  refine (h.origin name hname).imp (fun hs => shadowed_append_singleton.2 (.inl hs)) fun hpath => ?_
  rw [List.map_append]
  exact List.mem_append_left _ hpath

theorem fails {earlier : List Call} {c : Call} (h : Recorded earlier c.before)
    (hfails : ¬ c.Succeeds) : Recorded (earlier ++ [c]) c.after := by
  rw [Call.after_of_fails hfails]
  refine ⟨fun name hname => h.origin_append c hname, fun name hname => ?_⟩
  rcases shadowed_append_singleton.1 hname with hname | ⟨hok, -⟩
  · exact h.taken name hname
  · exact (hfails hok).elim

theorem succeeds {earlier : List Call} {files files' : FileSet} (h : Recorded earlier files)
    {read : String × Except IoError ByteArray} (hok : (files.call read).result = .ok files') :
    Recorded (earlier ++ [files.call read]) files' := by
  obtain ⟨bytes, body, -, -, rfl⟩ := addRead_eq_ok hok
  refine ⟨fun name hname => ?_, fun name hname => ?_⟩
  · rcases Entries.mem_keys_put.1 hname with rfl | hname
    · rcases nameFor_eq files read.1 with hfile | hpath
      · exact .inl (shadowed_append_singleton.2 (.inr ⟨⟨_, hok⟩, hfile⟩))
      · exact .inr (by simp [hpath, FileSet.call])
    · exact h.origin_append _ hname
  · refine Entries.mem_keys_put.2 ?_
    rcases shadowed_append_singleton.1 hname with hname | ⟨-, hfile⟩
    · exact .inr (h.taken name hname)
    · -- the file name of this load was free and is put now, or it was taken before
      change Path.fileName? read.1 = some name at hfile
      have hcases := nameFor_cases files read.1
      rw [hfile, Option.getD_some] at hcases
      rcases hcases with ⟨hfree, -⟩ | ⟨-, htaken⟩
      · exact .inl hfree.symm
      · exact .inr htaken

/-- One more load. -/
theorem call {earlier : List Call} {files : FileSet} (h : Recorded earlier files)
    (read : String × Except IoError ByteArray) :
    Recorded (earlier ++ [files.call read]) (files.call read).after := by
  by_cases hok : (files.call read).Succeeds
  · obtain ⟨files', hfiles⟩ := hok
    rw [Call.after_of_ok hfiles]
    exact h.succeeds hfiles
  · exact fails h hok

/-- A whole sequence of loads, seen from any of them. -/
theorem history {past : List Call} {files : FileSet} (h : Recorded past files)
    {reads : List (String × Except IoError ByteArray)} {earlier later : List Call} {c : Call}
    (hsplit : files.history reads = earlier ++ c :: later) :
    Recorded (past ++ earlier) c.before ∧ c.result = c.before.addRead c.path c.content := by
  induction reads generalizing past files earlier with
  | nil => cases earlier <;> cases hsplit
  | cons read rest ih =>
    cases earlier with
    | nil =>
      obtain ⟨rfl, -⟩ := List.cons.inj hsplit
      rw [List.append_nil]
      exact ⟨h, rfl⟩
    | cons first earlier =>
      obtain ⟨rfl, hrest⟩ := List.cons.inj hsplit
      have hlater := ih (h.call read) hrest
      rwa [List.append_assoc, List.singleton_append] at hlater

/-- A path that no earlier load had is taken just if it is an earlier file's name. -/
theorem mem_names_iff {earlier : List Call} {files : FileSet} (h : Recorded earlier files)
    {path : String} (hnew : path ∉ earlier.map Call.path) :
    path ∈ files.names ↔ Shadowed earlier path :=
  ⟨fun hmem => (h.origin path hmem).resolve_right hnew, h.taken path⟩

end Recorded

/-- A path in a directory is nobody's file name. -/
theorem not_shadowed_of_slash {earlier : List Call} {path : String} (h : '/' ∈ path.toList) :
    ¬ Shadowed earlier path :=
  fun ⟨_, _, _, hfile⟩ => (Path.of_fileName? hfile).1 h

theorem nameFor_of_shadowed {earlier : List Call} {path : String} (files : FileSet)
    (h : Shadowed earlier path) : files.nameFor path = path := by
  obtain ⟨c, -, -, hfile⟩ := h
  rcases nameFor_cases files path with ⟨hname, -⟩ | ⟨hname, -⟩
  · rw [hname, Path.fileName?_fileName hfile, Option.getD_some]
  · exact hname

/-- **Loading different paths loses a file exactly when a path is the bare name of an earlier
file.** A load that fails changes nothing. One that succeeds puts the parsed file last, under a new
name, and leaves the others as they are, unless an earlier load had a file of that very name: then
it takes that file's place. No path with a directory in it is in that case. -/
theorem loadEach_keeps [Monad m] [LawfulMonad m] (fs : FileSystem m) {paths : List String}
    (hpaths : paths.Nodup) :
    (loadEach fs [] paths = (fun reads => (history [] reads).map Call.result) <$>
      paths.mapM fun path => (path, ·) <$> fs.read path) ∧
    ∀ reads, reads.map (·.1) = paths → ∀ earlier c later,
      history [] reads = earlier ++ c :: later →
      (¬ c.Succeeds → c.after = c.before) ∧
      ('/' ∈ c.path.toList → ¬ Shadowed earlier c.path) ∧
      ∀ files, c.result = .ok files →
        ∃ bytes body, c.content = .ok bytes ∧ parse c.path bytes = .ok body ∧
          (¬ Shadowed earlier c.path →
            ∃ name, name ∉ c.before.names ∧ files = c.before ++ [(name, body)]) ∧
          (Shadowed earlier c.path →
            ∃ front old back, c.before = front ++ (c.path, old) :: back ∧
              files = front ++ (c.path, body) :: back) := by
  refine ⟨loadEach_eq fs [] paths, ?_⟩
  rintro reads rfl earlier c later hsplit
  obtain ⟨hrecorded, hresult⟩ := Recorded.empty.history hsplit
  rw [List.nil_append] at hrecorded
  have hnew : c.path ∉ earlier.map Call.path := by
    rw [← map_path_history [], hsplit, List.map_append, List.map_cons] at hpaths
    intro hmem
    exact (List.nodup_append.1 hpaths).2.2 _ hmem _ List.mem_cons_self rfl
  refine ⟨Call.after_of_fails, not_shadowed_of_slash, fun files hfiles => ?_⟩
  obtain ⟨bytes, body, hcontent, hbody, rfl⟩ := addRead_eq_ok (hresult.symm.trans hfiles)
  refine ⟨bytes, body, hcontent, hbody, fun hfree => ?_, fun hshadowed => ?_⟩
  · have hname : c.before.nameFor c.path ∉ c.before.names :=
      nameFor_new fun hmem => hfree ((hrecorded.mem_names_iff hnew).1 hmem)
    exact ⟨_, hname, Entries.put_of_new body hname⟩
  · rw [nameFor_of_shadowed _ hshadowed]
    exact Entries.put_of_mem body ((hrecorded.mem_names_iff hnew).2 hshadowed)

/-- A directory with a file, and a file of the same name beside the directory. -/
def namesakes : FileSystem Id :=
  (Disk.put (.file "b = 2\n".toUTF8) ["main.tf"]
    (Disk.put (.file "a = 1\n".toUTF8) ["a", "main.tf"] (.directory []))).fileSystem.within "/"

/-- The two loads of the files of one name. -/
def namesakeReads : List (String × Except IoError ByteArray) :=
  ["a/main.tf", "main.tf"].map fun path => (path, namesakes.read path)

theorem loadEach_keeps_namesakes :
    ["a/main.tf", "main.tf"].Nodup ∧
    ∃ first second files bytes body front old back,
      history [] namesakeReads = [first, second] ∧ second.path = "main.tf" ∧
      Shadowed [first] second.path ∧ second.result = .ok files ∧
      parse second.path bytes = .ok body ∧
      second.before = front ++ ("main.tf", old) :: back ∧
      files = front ++ ("main.tf", body) :: back := by
  let first := call [] ("a/main.tf", namesakes.read "a/main.tf")
  let second := call first.after ("main.tf", namesakes.read "main.tf")
  have hdistinct : ["a/main.tf", "main.tf"].Nodup := by decide
  have hfirst : first.Succeeds := by decide +kernel
  have hshadowed : Shadowed [first] second.path :=
    ⟨first, List.mem_singleton_self _, hfirst, by decide +kernel⟩
  obtain ⟨files, hfiles⟩ : second.Succeeds := by decide +kernel
  obtain ⟨-, hcalls⟩ := loadEach_keeps namesakes hdistinct
  obtain ⟨-, -, hloaded⟩ := hcalls namesakeReads rfl [first] second [] rfl
  obtain ⟨bytes, body, -, hbody, -, hreplaced⟩ := hloaded files hfiles
  obtain ⟨front, old, back, hbefore, hafter⟩ := hreplaced hshadowed
  exact ⟨hdistinct, first, second, files, bytes, body, front, old, back, rfl, rfl, hshadowed,
    hfiles, hbody, hbefore, hafter⟩

/-- The file in the directory is lost when the other one is loaded after it. -/
theorem loadEach_loses_file :
    ["a/main.tf", "main.tf"].Nodup ∧
    (loadEach namesakes [] ["a/main.tf", "main.tf"]).map
        (fun result => result.toOption.map fun files =>
          files.map fun file => (file.1, file.2.attributeNames)) =
      [some [("main.tf", ["a"])], some [("main.tf", ["b"])]] := by
  decide +kernel

end FileSet

end EarlyConfig
