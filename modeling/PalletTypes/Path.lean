/-!
File paths by their spelling. Empty components and single dots are dropped, and
`..` is kept: where it leads depends on the tree.
-/

namespace PalletTypes

/-- What a path starts from. Exactly two leading slashes are kept apart from one
and from more, which count as one. -/
inductive Anchor where
  | relative
  | root
  | doubleRoot
deriving DecidableEq

structure Path where
  anchor : Anchor
  names : List String
deriving DecidableEq

def Anchor.spelling : Anchor → List Char
  | .relative => []
  | .root => ['/']
  | .doubleRoot => ['/', '/']

namespace Path

def components : List Char → List (List Char)
  | [] => [[]]
  | character :: rest =>
      if character = '/' then [] :: components rest
      else
        match components rest with
        | [] => [[character]]
        | component :: components => (character :: component) :: components

def anchorOf : List Char → Anchor
  | '/' :: '/' :: '/' :: _ => .root
  | '/' :: '/' :: _ => .doubleRoot
  | '/' :: _ => .root
  | _ => .relative

def ofChars (spelling : List Char) : Path :=
  ⟨anchorOf spelling, ((components spelling).filter fun component =>
    component ≠ [] ∧ component ≠ ['.']).map String.ofList⟩

def ofString (spelling : String) : Path :=
  ofChars spelling.toList

def joined : List String → List Char
  | [] => []
  | [name] => name.toList
  | name :: names => name.toList ++ '/' :: joined names

def toChars (path : Path) : List Char :=
  match path.anchor, path.names with
  | .relative, [] => ['.']
  | anchor, names => anchor.spelling ++ joined names

def toString (path : Path) : String :=
  String.ofList path.toChars

def join (base path : Path) : Path :=
  match path.anchor with
  | .relative => ⟨base.anchor, base.names ++ path.names⟩
  | _ => path

def child (base : Path) (spelling : String) : Path :=
  base.join (ofString spelling)

def parent (path : Path) : Path :=
  { path with names := path.names.dropLast }

def dropTrailingSlashes (spelling : List Char) : List Char :=
  (spelling.reverse.dropWhile (· == '/')).reverse

/-- Puts the home directory in the place of a leading `~`. The homes of other
users are not known. -/
def expandHome (home : Option String) (path : Path) : Option Path :=
  match path with
  | ⟨.relative, first :: names⟩ =>
      if first.toList.head? ≠ some '~' then some path
      else if first ≠ "~" then none
      else
        match home with
        | none => none
        | some home =>
            match dropTrailingSlashes home.toList with
            | [] => some ⟨.root, names⟩
            | '~' :: _ => none
            | spelling =>
                let base := ofChars spelling
                some { base with names := base.names ++ names }
  | path => some path

end Path

end PalletTypes
