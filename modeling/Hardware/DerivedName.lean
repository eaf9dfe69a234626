import Hardware.Attr
import Hardware.Ident
import Hardware.Text.CodePoints

/-!
Names derived from parameters, such as `Adder_width8`. The parameters are written one
after the other, sorted as text; what remains is reduced to letters and numbers with
single underscores between them.
-/
namespace Hardware

namespace DerivedName

/-- The text without the mark that begins some types. -/
def removeMark : List Char → List Char
  | '!' :: 'h' :: 'w' :: '.' :: rest => removeMark rest
  | c :: rest => c :: removeMark rest
  | [] => []

/-- Punctuation that vanishes without leaving a separator. -/
def vanishing : List Char := ['!', '>', '[', ']', ',', '"']

/-- Append one character to a name whose last character comes first in `acc`. Anything but
a letter or number becomes an underscore, unless one is there already. -/
def reduceStep (acc : List Char) (c : Char) : List Char :=
  if Text.isAlphanumeric c then c :: acc
  else if vanishing.contains c then acc
  else
    match acc with
    | [] => []
    | '_' :: _ => acc
    | _ => '_' :: acc

/-- Letters and numbers with single underscores between them. -/
def reduce (cs : List Char) : List Char :=
  (((cs.foldl reduceStep []).dropWhile (· = '_')).reverse).dropWhile (· = '_')

/-- The parameters of a dictionary as words, sorted. Other values have none. -/
def words (params : Attr) : List String :=
  sortByKey id ((params.asDict?.getD []).map fun e => e.1 ++ e.2.plain)

end DerivedName

/-- The name of a module derived from its declared name and its parameters. -/
def derivedName (base : Ident) (params : Attr) : Ident :=
  let full := String.join (base :: (DerivedName.words params).map ("_" ++ ·))
  String.ofList (DerivedName.reduce (DerivedName.removeMark full.toList))

end Hardware
