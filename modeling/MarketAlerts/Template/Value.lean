import MarketAlerts.Decimal.Arithmetic
import MarketAlerts.Decimal.Text
import MarketAlerts.Instant.Rfc3339

/-!
# Values in templates

A `Value` is what a variable of a template stands for. A `Formatter` writes values in a way of its
own; which one does is decided by the end of the name of the variable.
-/

namespace MarketAlerts.Template

/-- What a variable stands for. -/
inductive Value where
  /-- A text. -/
  | text (s : String)
  /-- A decimal. -/
  | decimal (d : Decimal)
  /-- A whole number. -/
  | integer (n : Int64)
  /-- A truth value. -/
  | bool (b : Bool)
  /-- A point in time. -/
  | instant (t : Instant)

namespace Value

/-- The value written plainly. -/
def display : Value → String
  | text s => s
  | decimal d => toString d.normalize
  | integer n => toString n.toInt
  | bool b => if b then "true" else "false"
  | instant t => t.toRfc3339

/-- The value as a number, also from a text with blanks around it. -/
def asDecimal? : Value → Option Decimal
  | decimal d => some d
  | integer n => some (.ofInt64 n)
  | text s => Decimal.ofString? (Text.trim s)
  | _ => none

end Value

/-- A way to write values. -/
inductive Formatter where
  /-- An amount of money. -/
  | currency
  /-- A percentage. -/
  | percentage
  /-- A sign for a priority. -/
  | emoji
  /-- A date and time. -/
  | datetime
deriving DecidableEq

namespace Formatter

/-- All formatters. -/
def all : List Formatter := [currency, percentage, emoji, datetime]

/-- The name of a formatter. -/
def name : Formatter → String
  | currency => "currency"
  | percentage => "percentage"
  | emoji => "emoji_priority"
  | datetime => "datetime"

/-- The formatter of a name. -/
def ofName? (s : String) : Option Formatter := all.find? fun f => f.name = s

/-- What the name of a variable has to end in. -/
def suffix : Formatter → String
  | currency => "_price"
  | percentage => "_percent"
  | emoji => "_emoji"
  | datetime => "_datetime"

/-- The formatter for a variable, if its name asks for one. -/
def forVariable? (variableName : String) : Option Formatter :=
  all.find? fun f => f.suffix.toList.isSuffixOf variableName.toList

/-- Digits in groups of three, counted from the right, with commas between them. -/
def groupThousands : List Char → List Char
  | [] => []
  | c :: cs =>
    if cs ≠ [] ∧ cs.length % 3 = 0 then c :: ',' :: groupThousands cs else c :: groupThousands cs

/-- An amount with two places and grouped digits; a half is rounded away from zero, and the sign
stands before the currency. -/
def currencyText (d : Decimal) : String :=
  let amount := d.roundAway 2
  let digits := (amount.abs.fixed 2).toList
  let whole := digits.takeWhile (· != '.')
  let sign := if amount.negative && !amount.isZero then "-" else ""
  sign ++ "$" ++ String.ofList (groupThousands whole ++ digits.dropWhile (· != '.'))

/-- A percentage with one place; a half is rounded away from zero. -/
def percentageText (d : Decimal) : String := (d.roundAway 1).fixed 1 ++ "%"

/-- The sign of a priority. -/
def emojiText? : Int → Option String
  | 1 => some "🔵"
  | 2 => some "🟢"
  | 3 => some "🟡"
  | 4 => some "🟠"
  | 5 => some "🔴"
  | _ => none

/-- A value in a way of its own; `none` if it is not of the right type. -/
def text? (f : Formatter) (v : Value) : Option String :=
  match f, v with
  | currency, v => v.asDecimal?.map currencyText
  | percentage, v => v.asDecimal?.map percentageText
  | emoji, .integer n => emojiText? n.toInt
  | emoji, v => v.asDecimal?.bind fun d => emojiText? d.trunc
  | datetime, .instant t => some t.toPlain
  | datetime, .text s => (Instant.ofRfc3339? s).map (·.toPlain)
  | datetime, .integer n => (Instant.ofSeconds? n.toInt).map (·.toPlain)
  | datetime, _ => none

end Formatter

end MarketAlerts.Template
