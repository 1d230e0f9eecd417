import Gazetteer.Place
import Gazetteer.Text.Blank

/-!
# The name of a place

A place goes by its name in the first preferred language that it has one in, else by its
untranslated name, else by any name, else by what its address tags say.  Blank names count
as missing throughout.
-/

namespace Gazetteer

/-- A text that is not blank. -/
def notBlank? (text : String) : Option String :=
  if Text.isBlank text then none else some text

namespace Place

variable {K : Type}

/-- The name in a language. -/
def nameIn? (place : Place K) (language : String) : Option String :=
  (place.names.get? language).bind notBlank?

/-- The trimmed text of an address tag. -/
def addressTag? (place : Place K) (key : String) : Option String :=
  ((place.address.get? key).map Text.trim).bind notBlank?

/-- The address tags that name a place without house number and street, in this order. -/
def fallbackAddressKeys : List String :=
  ["housename", "postcode", "suburb", "city", "county", "state", "country"]

/-- A name made from address tags: number and street, the number alone, the name of the
house before its street, and otherwise the first tag that says anything. -/
def addressName? (place : Place K) : Option String :=
  let street := place.addressTag? "street" <|> place.addressTag? "place"
  match place.addressTag? "housenumber", street with
  | some number, some street => some (number ++ " " ++ street)
  | some number, none => some number
  | none, some street => some ((place.addressTag? "housename").getD street)
  | none, none =>
    fallbackAddressKeys.findSome? place.addressTag? <|>
      place.address.values.findSome? fun value => notBlank? (Text.trim value)

/-- The name of a place for readers of the given languages. -/
def name? (place : Place K) (languages : List String) : Option String :=
  languages.findSome? place.nameIn? <|> place.nameIn? defaultNameKey <|>
    place.names.values.findSome? notBlank? <|> place.addressName?

end Place

end Gazetteer
