import ClassLoading.Class.Pool

/-!
# Type references

The type of a field or the types of a method's arguments, as indices of constants that name them. A
lone index is kept apart from a chain of them, and reading always makes that distinction: a chain of
one arises only by hand.
-/

namespace ClassLoading

inductive TypeRef where
  | single (tag : UInt16)
  | chain (tags : List UInt16)
  deriving DecidableEq

namespace TypeRef

def ofTags : List UInt16 → TypeRef
  | [tag] => single tag
  | tags => chain tags

def tags : TypeRef → List UInt16
  | single tag => [tag]
  | chain tags => tags

@[simp] theorem tags_ofTags (tags : List UInt16) : (ofTags tags).tags = tags := by
  match tags with
  | [] | [_] | _ :: _ :: _ => rfl

/-- The names at the tags, where a tag addresses a text. -/
def names (type : TypeRef) (pool : Pool) : List (Option String) :=
  type.tags.map fun tag => pool.text? tag.toNat

end TypeRef

end ClassLoading
