import EarlyConfig.Hcl.Body
import EarlyConfig.Hcl.Read.Expr

/-! Reading bodies. Each structure ends its line, except that a block may stand on one line if it
holds at most one attribute and no block. No body sets an attribute twice. -/
namespace EarlyConfig.Hcl

/-- No two attributes have one name. -/
def Body.distinct (b : Body) : Bool :=
  b.attributeNames.Pairwise (· ≠ ·)

namespace Read

def attributeAfter (key : Located String) : Reader Attribute := do
  char '='
  space
  return ⟨key, ← expr⟩

def attr : Reader Attribute := do
  let key ← located identifier
  space
  attributeAfter key

def label : Reader (Located String) :=
  located (quotedString <|> identifier) <* space

/-- A body on the line of its braces. -/
def oneLine : Reader Body := do
  space
  let a ← opt (attr <* space)
  return a.toList.map .attr

/-- The structures of a body, given the reader of the blocks' bodies. -/
def structures (inner : Reader Body) : Reader Body := do
  gap
  let items ← many (item <* space <* opt lineComment <* (lineEnd <|> atEnd) <* gap)
  if Body.distinct items then return items else failure
where
  item : Reader Item := do
    let key ← located identifier
    space
    .attr <$> attributeAfter key <|> do
      let labels ← many label
      char '{'
      let body ← inner
      char '}'
      return .block ⟨key, labels⟩ body

/-- Bodies of blocks that nest less deep than the bound. -/
def blockBody : Nat → Reader Body
  | 0 => failure
  | depth + 1 => (restOfLine *> structures (blockBody depth)) <|> oneLine

def body : Reader Body := do
  structures (blockBody (← bytesLeft))

end Read

/-- The body that makes up the whole text. -/
def Body.ofText? (s : String) : Option Body :=
  Read.whole Read.body s

end EarlyConfig.Hcl
