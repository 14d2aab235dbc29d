/-!
Texts of numbers: digits with a sign, a point and an exponent if need be, or a word for one of the
values beyond the numbers.
-/

namespace TreeRules.Text

def unsigned : List Char → List Char
  | '+' :: rest | '-' :: rest => rest
  | text => text

def isDigits (text : List Char) : Bool := !text.isEmpty && text.all Char.isDigit

/-- Whether a text is nothing or an exponent. -/
def isExponent : List Char → Bool
  | [] => true
  | c :: rest => (c == 'e' || c == 'E') && isDigits (unsigned rest)

/-- Whether a text is digits, perhaps with a point before, within or behind them, and perhaps an
exponent. -/
def isDecimal (text : List Char) : Bool :=
  let whole := text.takeWhile Char.isDigit
  match text.dropWhile Char.isDigit with
  | '.' :: rest =>
    !(whole.isEmpty && (rest.takeWhile Char.isDigit).isEmpty) &&
      isExponent (rest.dropWhile Char.isDigit)
  | rest => !whole.isEmpty && isExponent rest

def beyondNumbers : List String := ["inf", "infinity", "nan"]

/-- Whether a text is that of a number. The words can be in letters of either case. -/
def isNumber (text : List Char) : Bool :=
  let text := unsigned text
  isDecimal text || beyondNumbers.contains (String.ofList (text.map Char.toLower))

end TreeRules.Text
