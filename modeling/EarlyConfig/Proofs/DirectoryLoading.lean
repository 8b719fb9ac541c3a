import EarlyConfig.Proofs.ByteOrder
import EarlyConfig.Proofs.FileLoading

/-! Loading a directory. The system may list a directory in any order; the files that are wanted
from it are loaded in the order of the bytes of their names (`FileSet.matching_eq`). Loading ends at
the first file that cannot be read or parsed, with exactly the files before it loaded
(`FileSet.loadDirectory_ascending`). Whether a file can be read and parsed does not depend on what
was loaded before, but the name it goes by does. -/
namespace EarlyConfig

/-- The file system answers the same however often it is asked. -/
structure FileSystem.AtRest [Monad m] (fs : FileSystem m)
    (content : String → Except IoError ByteArray)
    (listing : String → Except IoError (List DirectoryEntry)) : Prop where
  read : ∀ path, fs.read path = pure (content path)
  list : ∀ path, fs.list path = pure (listing path)

namespace FileSet

/-! ### Which files, and in which order -/

/-- A file, as opposed to a directory or a link, whose name has one of the endings. -/
def Wanted (suffixes : List String) (e : DirectoryEntry) : Prop :=
  e.isFile = true ∧ ∃ suffix ∈ suffixes, suffix.toList <:+ e.name.toList

instance (suffixes : List String) (e : DirectoryEntry) : Decidable (Wanted suffixes e) :=
  inferInstanceAs (Decidable (_ ∧ _))

/-- The names of all files that are wanted, and nothing else, in ascending order of their bytes. -/
theorem matching_eq {suffixes names : List String} {entries : List DirectoryEntry}
    (hascending : names.Pairwise Text.BytesLe)
    (hperm : names.Perm ((entries.filter (Wanted suffixes ·)).map (·.name))) :
    matching suffixes entries = names := by
  have hfits : (entries.filter fun e =>
      e.isFile && suffixes.any fun suffix => suffix.toList.isSuffixOf e.name.toList) =
        entries.filter (Wanted suffixes ·) := by
    apply List.filter_congr
    intro e _
    rw [Bool.eq_iff_iff, decide_eq_true_iff]
    simp [Wanted]
  rw [← hfits] at hperm
  exact Text.mergeSort_eq (hascending.imp Text.bytesLe_iff.1) hperm

/-! ### One file -/

/-- What keeps a file from being loaded: it cannot be read, or what is read cannot be parsed. -/
def problem? (content : String → Except IoError ByteArray) (path : String) : Option LoadError :=
  match content path with
  | .error e => some (.io e)
  | .ok bytes =>
    match parse path bytes with
    | .error e => some e
    | .ok _ => none

section

variable [Monad m] [LawfulMonad m] {fs : FileSystem m}
  {content : String → Except IoError ByteArray}
  {listing : String → Except IoError (List DirectoryEntry)}

theorem loadFile_of_atRest (hrest : fs.AtRest content listing) (files : FileSet) (path : String) :
    files.loadFile fs path = pure (files.addRead path (content path)) := by
  rw [loadFile_eq, hrest.read, map_pure]

/-- A file without a problem can be loaded whatever was loaded before. -/
theorem loadFile_of_none (hrest : fs.AtRest content listing) {path : String}
    (h : problem? content path = none) (files : FileSet) :
    ∃ next, files.loadFile fs path = pure (.ok next) := by
  rw [loadFile_of_atRest hrest]
  unfold problem? at h
  cases hcontent : content path with
  | error e => simp [hcontent] at h
  | ok bytes =>
    cases hbody : parse path bytes with
    | error e => simp [hcontent, hbody] at h
    | ok body =>
      refine ⟨files.insert (files.nameFor path) body, congrArg pure ?_⟩
      show files.add path bytes = _
      rw [add, hbody]
      rfl

theorem loadFile_of_some (hrest : fs.AtRest content listing) {path : String} {e : LoadError}
    (h : problem? content path = some e) (files : FileSet) :
    files.loadFile fs path = pure (.error e) := by
  rw [loadFile_of_atRest hrest]
  unfold problem? at h
  apply congrArg pure
  cases hcontent : content path with
  | error cause =>
    rw [hcontent] at h
    cases h
    rfl
  | ok bytes =>
    show files.add path bytes = _
    cases hbody : parse path bytes with
    | error cause =>
      rw [hcontent] at h
      simp only [hbody] at h
      cases h
      rw [add, hbody]
      rfl
    | ok body => simp [hcontent, hbody] at h

end

/-! ### One file after another -/

/-- The files can be loaded one after another, and this is what they come to. -/
inductive Loads [Monad m] (fs : FileSystem m) : FileSet → List String → FileSet → Prop
  | nil {files : FileSet} : Loads fs files [] files
  | cons {files next loaded : FileSet} {path : String} {rest : List String}
      (first : files.loadFile fs path = pure (.ok next)) (others : Loads fs next rest loaded) :
      Loads fs files (path :: rest) loaded

section

variable [Monad m] [LawfulMonad m] {fs : FileSystem m}
  {content : String → Except IoError ByteArray}
  {listing : String → Except IoError (List DirectoryEntry)}

theorem exists_loads (hrest : fs.AtRest content listing) (files : FileSet) {paths : List String}
    (h : ∀ path ∈ paths, problem? content path = none) : ∃ loaded, Loads fs files paths loaded := by
  induction paths generalizing files with
  | nil => exact ⟨files, .nil⟩
  | cons path rest ih =>
    rw [List.forall_mem_cons] at h
    obtain ⟨next, hnext⟩ := loadFile_of_none hrest h.1 files
    obtain ⟨loaded, hloaded⟩ := ih next h.2
    exact ⟨loaded, .cons hnext hloaded⟩

/-- Files that can be loaded are loaded, and then it goes on with the others. -/
theorem loadFiles_append {files loaded : FileSet} {before : List String}
    (h : Loads fs files before loaded) (others : List String) :
    files.loadFiles fs (before ++ others) = loaded.loadFiles fs others := by
  induction h with
  | nil => rfl
  | cons first _ ih =>
    rw [List.cons_append, loadFiles, first, pure_bind]
    exact ih

theorem loadFiles_of_loads {files loaded : FileSet} {paths : List String}
    (h : Loads fs files paths loaded) : files.loadFiles fs paths = pure (loaded, none) := by
  have := loadFiles_append h []
  rwa [List.append_nil] at this

/-- A file that cannot be loaded ends it. -/
theorem loadFiles_of_error {files : FileSet} {path : String} {e : LoadError}
    (h : files.loadFile fs path = pure (.error e)) (others : List String) :
    files.loadFiles fs (path :: others) = pure (files, some e) := by
  rw [loadFiles, h, pure_bind]

theorem loadDirectory_of_loadFiles (hrest : fs.AtRest content listing) {directory : String}
    {suffixes names : List String} {entries : List DirectoryEntry}
    (hlisting : listing directory = .ok entries) (hnames : matching suffixes entries = names)
    {files loaded : FileSet} {failure : Option LoadError}
    (h : files.loadFiles fs (names.map (Path.join directory)) = pure (loaded, failure)) :
    files.loadDirectory fs suffixes directory =
      pure (loaded, failure.elim (.ok names.length) .error) := by
  rw [loadDirectory, hrest.list, hlisting, pure_bind]
  simp only [hnames]
  rw [h, pure_bind]
  cases failure <;> rfl

/-- **A directory is loaded in order, up to the first failure.** However its files are listed, those
that are wanted are loaded one after another in the order of the bytes of their names. If all of
them can be read and parsed, the result is how many there are. If not, it is the error of the first
that cannot, and what is loaded is what the files before it come to. -/
theorem loadDirectory_ascending (hrest : fs.AtRest content listing) (files : FileSet)
    (suffixes : List String) (directory : String) :
    (∀ e, listing directory = .error e →
      files.loadDirectory fs suffixes directory = pure (files, .error (.io e))) ∧
    ∀ entries names, listing directory = .ok entries → names.Pairwise Text.BytesLe →
      names.Perm ((entries.filter (Wanted suffixes ·)).map (·.name)) →
      ((∀ name ∈ names, problem? content (Path.join directory name) = none) →
        ∃ loaded, Loads fs files (names.map (Path.join directory)) loaded ∧
          files.loadDirectory fs suffixes directory = pure (loaded, .ok names.length)) ∧
      ∀ before bad after e, names = before ++ bad :: after →
        (∀ name ∈ before, problem? content (Path.join directory name) = none) →
        problem? content (Path.join directory bad) = some e →
        ∃ loaded, Loads fs files (before.map (Path.join directory)) loaded ∧
          loaded.loadFile fs (Path.join directory bad) = pure (.error e) ∧
          files.loadDirectory fs suffixes directory = pure (loaded, .error e) := by
  constructor
  · intro e he
    rw [loadDirectory, hrest.list, he, pure_bind]
  · intro entries names hlisting hascending hperm
    have hpaths : ∀ names : List String,
        (∀ name ∈ names, problem? content (Path.join directory name) = none) →
        ∃ loaded, Loads fs files (names.map (Path.join directory)) loaded := by
      intro names hnames
      apply exists_loads hrest
      intro path hpath
      obtain ⟨name, hname, rfl⟩ := List.mem_map.1 hpath
      exact hnames name hname
    have hmatching := matching_eq hascending hperm
    constructor
    · intro hnames
      obtain ⟨loaded, hloaded⟩ := hpaths names hnames
      exact ⟨loaded, hloaded,
        loadDirectory_of_loadFiles hrest hlisting hmatching (loadFiles_of_loads hloaded)⟩
    · intro before bad after e hsplit hbefore hbad
      obtain ⟨loaded, hloaded⟩ := hpaths before hbefore
      have herror := loadFile_of_some hrest hbad loaded
      have hstop :
          files.loadFiles fs (names.map (Path.join directory)) = pure (loaded, some e) := by
        rw [hsplit, List.map_append, List.map_cons, loadFiles_append hloaded,
          loadFiles_of_error herror]
      exact ⟨loaded, hloaded, herror, loadDirectory_of_loadFiles hrest hlisting hmatching hstop⟩

end

/-- A directory with two files that can be loaded, one that cannot, and things that are not wanted,
in no particular order. -/
def shelf : Disk :=
  .directory [("conf", .directory [
    ("c.tf", .file "c = = 3\n".toUTF8), ("b.tf", .file "b = 2\n".toUTF8), ("z.tf", .directory []),
    ("a.md", .file "= no\n".toUTF8), ("a.tf", .file "a = 1\n".toUTF8)])]

theorem loadDirectory_ascending_shelf :
    shelf.fileSystem.AtRest shelf.read shelf.list ∧
    ["a.tf", "b.tf", "c.tf"].Pairwise Text.BytesLe ∧
    problem? shelf.read "/conf/c.tf" = some (.malformed "/conf/c.tf") ∧
    ∃ entries loaded, shelf.list "/conf" = .ok entries ∧
      ["a.tf", "b.tf", "c.tf"].Perm ((entries.filter (Wanted [".tf"] ·)).map (·.name)) ∧
      Loads shelf.fileSystem [] ["/conf/a.tf", "/conf/b.tf"] loaded ∧
      loadDirectory shelf.fileSystem [] [".tf"] "/conf" =
        (loaded, .error (.malformed "/conf/c.tf")) := by
  let entries : List DirectoryEntry :=
    [⟨"c.tf", true⟩, ⟨"b.tf", true⟩, ⟨"z.tf", false⟩, ⟨"a.md", true⟩, ⟨"a.tf", true⟩]
  have hrest : shelf.fileSystem.AtRest shelf.read shelf.list := ⟨fun _ => rfl, fun _ => rfl⟩
  have hlist : shelf.list "/conf" = .ok entries := by decide +kernel
  have hascending : ["a.tf", "b.tf", "c.tf"].Pairwise Text.BytesLe :=
    List.Pairwise.imp (R := (· ≤ ·)) Text.bytesLe_iff.2 (by decide +kernel)
  have hperm : ["a.tf", "b.tf", "c.tf"].Perm
      ((entries.filter (Wanted [".tf"] ·)).map (·.name)) := by decide +kernel
  have hfine : ∀ name ∈ ["a.tf", "b.tf"], problem? shelf.read (Path.join "/conf" name) = none := by
    decide +kernel
  have hbad : problem? shelf.read (Path.join "/conf" "c.tf") = some (.malformed "/conf/c.tf") := by
    decide +kernel
  obtain ⟨-, hloads⟩ := loadDirectory_ascending hrest [] [".tf"] "/conf"
  obtain ⟨-, hfails⟩ := hloads entries _ hlist hascending hperm
  obtain ⟨loaded, hloaded, -, hresult⟩ := hfails ["a.tf", "b.tf"] "c.tf" [] _ rfl hfine hbad
  exact ⟨hrest, hascending, hbad, entries, loaded, hlist, hperm, hloaded, hresult⟩

end FileSet

end EarlyConfig
