import PageScript.Text.Parts

namespace PageScript.Path

def names (path : String) : List String :=
  ((Text.parts '/' path.toList).map String.ofList).filter (· ≠ "")

def isAbsolute (path : String) : Bool := path.toList.head? = some '/'

def wantsDirectory (path : String) : Bool := path.toList.getLast? = some '/'

/-- A NUL ends a path for the system, so no path may hold one. -/
def holdsNul (path : String) : Bool := path.toList.contains '\x00'

/-- The names that count. A dot does so only at the start of a relative path. -/
def components (path : String) : List String :=
  let counted := (names path).filter (· ≠ ".")
  if !isAbsolute path && (names path).head? = some "." then "." :: counted else counted

def same (p q : String) : Bool := isAbsolute p = isAbsolute q && components p = components q

/-- The steps to take, with a dot for the slash at the end. -/
def steps (path : String) : List String :=
  if wantsDirectory path then names path ++ ["."] else names path

/-- The most bytes that the system takes for a name. -/
def nameLimit : Nat := 255

def limit : Nat := 4095

def isLongName (name : String) : Bool := nameLimit < name.utf8ByteSize

def isLong (path : String) : Bool := limit < path.utf8ByteSize

/-- The places, in characters, at which the parts that count end. -/
def endsFrom (place : Nat) : List (List Char) → List Nat
  | [] => []
  | part :: rest =>
    let later := endsFrom (place + part.length + 1) rest
    if part = [] ∨ part = ['.'] then later else (place + part.length) :: later

/-- The places at which the components end, the first one first. -/
def ends (path : String) : List Nat :=
  match Text.parts '/' path.toList with
  | ['.'] :: rest => 1 :: endsFrom 2 rest
  | ps => endsFrom 0 ps

/-- What a path is up to one of its ends. -/
def upTo (path : String) (place : Nat) : String := String.ofList (path.toList.take place)

def below (base name : String) : String :=
  if wantsDirectory base then base ++ name else base ++ "/" ++ name

end PageScript.Path
