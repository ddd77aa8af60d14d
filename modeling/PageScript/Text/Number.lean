namespace PageScript.Text

def unsigned : List Char → List Char
  | '+' :: r | '-' :: r => r
  | r => r

def isExponent : List Char → Bool
  | [] => true
  | c :: r =>
    (c = 'e' || c = 'E') && !(unsigned r).isEmpty && (unsigned r).all Char.isDigit

def isDecimal (cs : List Char) : Bool :=
  let whole := cs.takeWhile Char.isDigit
  match cs.drop whole.length with
  | '.' :: r =>
    let fraction := r.takeWhile Char.isDigit
    !(whole ++ fraction).isEmpty && isExponent (r.drop fraction.length)
  | r => !whole.isEmpty && isExponent r

def isNumber (cs : List Char) : Bool :=
  ["inf", "infinity", "nan"].contains (String.ofList ((unsigned cs).map Char.toLower)) ||
    isDecimal (unsigned cs)

end PageScript.Text
