/-!
Types have namespace-qualified names such as `System.String`, members have plain ones such as
`Invoke`. A member name carries the proof that its text is well formed. The name of a type may be
any text, since the names of arrays and pointers are made from those of their elements; the
characters they are made with (`[`, `]`, `&`) are never part of a name that was read from a text.
-/

namespace StackTyping

/-- What is wrong with a text that was meant to be a name. -/
inductive NameProblem where
  | empty
  | emptySegment
  | illegalCharacter
deriving DecidableEq

inductive NameSort where
  | type
  | member
deriving DecidableEq

/-- A text refused as a name, with the reason. -/
structure NameError where
  sort : NameSort
  text : String
  problem : NameProblem
deriving DecidableEq

namespace NameError

def message (e : NameError) : String :=
  let noun := match e.sort with
    | .type => "Type name"
    | .member => "Member name"
  match e.problem with
  | .empty => noun ++ " is empty"
  | .emptySegment => noun ++ " '" ++ e.text ++ "' has an empty namespace segment"
  | .illegalCharacter => noun ++ " '" ++ e.text ++ "' contains an illegal character"

end NameError

/-- The pieces of a text between its dots; a text without dots is one piece. -/
def segments : List Char → List (List Char)
  | [] => [[]]
  | c :: cs =>
    match c == '.', segments cs with
    | true, rest => [] :: rest
    | false, [] => [[c]]
    | false, piece :: rest => (c :: piece) :: rest

/-- Characters that no part of a type name contains. -/
def typeNameIllegal : List Char := ['/', ';', '[', ']', '&', '*']

def memberNameIllegal : List Char := ['/', ';', '[', ']', '&']

def segmentProblem? (piece : List Char) : Option NameProblem :=
  if piece.isEmpty then some .emptySegment
  else if piece.any (typeNameIllegal.contains ·) then some .illegalCharacter
  else none

/-- What is wrong with a text as a type name; of several faults, the one in the first bad
segment. -/
def typeNameProblem? (text : String) : Option NameProblem :=
  if text.toList.isEmpty then some .empty
  else (segments text.toList).findSome? segmentProblem?

def memberNameProblem? (text : String) : Option NameProblem :=
  if text.toList.isEmpty then some .empty
  else if text.toList.any (memberNameIllegal.contains ·) then some .illegalCharacter
  else none

/-- A namespace-qualified name of a type. -/
structure TypeName where
  text : String
deriving DecidableEq

namespace TypeName

def parse (text : String) : Except NameError TypeName :=
  match typeNameProblem? text with
  | none => .ok ⟨text⟩
  | some problem => .error ⟨.type, text, problem⟩

/-- Whether the text would be read as a type name. -/
def IsValid (name : TypeName) : Prop := typeNameProblem? name.text = none

instance (name : TypeName) : Decidable name.IsValid :=
  inferInstanceAs (Decidable (_ = _))

end TypeName

structure MemberName where
  text : String
  valid : memberNameProblem? text = none
deriving DecidableEq

namespace MemberName

def parse (text : String) : Except NameError MemberName :=
  match h : memberNameProblem? text with
  | none => .ok ⟨text, h⟩
  | some problem => .error ⟨.member, text, problem⟩

def constructor : MemberName := ⟨".ctor", rfl⟩

/-- The name of the method through which a delegate is called. -/
def invoke : MemberName := ⟨"Invoke", rfl⟩

end MemberName

def arrayText (element : String) : String := element ++ "[]"

def pointerText (element : String) : String := element ++ "&"

end StackTyping
