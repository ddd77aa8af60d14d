import PageScript.Text.Blank

namespace PageScript.Pattern

/-- Whether characters are matched as such or byte by byte, whether letters match in either case,
and whether blanks and comments in the pattern count for nothing. -/
structure Mode where
  unicode : Bool
  eitherCase : Bool
  spaced : Bool
  deriving DecidableEq, Repr

namespace Mode

def initial : Mode := ⟨true, false, false⟩

/-- The flags before a dash are set, those after it are unset. -/
def set (mode : Mode) (flags : List Char) : Mode :=
  let on := flags.takeWhile (· ≠ '-')
  let choose := fun flag old => if flags.contains flag then on.contains flag else old
  ⟨choose 'u' mode.unicode, choose 'i' mode.eitherCase, choose 'x' mode.spaced⟩

/-- Each flag stands once, and no dash at the end. -/
def isFlags (flags : List Char) : Bool :=
  decide flags.Nodup && flags.getLast? ≠ some '-' && flags.all ("imsUuRx-".toList.contains ·)

end Mode

/-- Goes past blanks and, once a `#` was seen, the rest of its line. -/
def skipNotes : Bool → List Char → List Char
  | _, [] => []
  | true, c :: r => skipNotes (c ≠ '\n') r
  | false, c :: r =>
    if c = '#' then skipNotes true r
    else if Text.isBlank c then skipNotes false r
    else c :: r

def skip (mode : Mode) (cs : List Char) : List Char :=
  if mode.spaced then skipNotes false cs else cs

end PageScript.Pattern
