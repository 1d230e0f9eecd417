import Gazetteer.Place

/-!
# What tags say about a place

Names, address parts, extra details and the country code are taken over from the tags of an
element.  Tags are gone through in the order of their keys, and where two say the same
thing the later one counts.
-/

namespace Gazetteer.Osm

/-- What a tag tells about a place, by its key. -/
inductive TagRole where
  /-- A name, in the language of the place itself if none is given. -/
  | name (language : String)
  | addressPart (part : String)
  | wikidata
  | extra
  | other
deriving DecidableEq, Repr

/-- Keys of details that are kept as they are. -/
def extraKeys : List String :=
  ["website", "contact:website", "phone", "contact:phone", "opening_hours", "wikipedia",
    "population", "capital", "wheelchair", "cuisine", "operator", "ele"]

/-- Characters of language codes. -/
def isLanguageChar (c : Char) : Bool :=
  c.isAlphanum || c = '-' || c = '_'

/-- Whether what follows `name:` in a key is the code of a language.  It also serves for
other remarks about names, such as their etymology. -/
def isLanguageCode (code : List Char) : Bool :=
  2 ≤ code.length && code.length ≤ 10 && code.all isLanguageChar &&
    !Text.occursIn "etymology".toList code

/-- What a tag with this key is for. -/
def TagRole.ofKey (key : String) : TagRole :=
  if key = "name" then .name ""
  else
    match Text.afterText? "name:" key with
    | some code => if isLanguageCode code.toList then .name (Text.lower code) else .other
    | none =>
      match Text.afterText? "addr:" key with
      | some part => .addressPart part
      | none =>
        if key = "wikidata" then .wikidata
        else if key ∈ extraKeys then .extra
        else .other

/-- The code of a country, in small letters, by the first of its tags. -/
def countryCode? (tags : Tags) : Option String :=
  (["ISO3166-1:alpha2", "ISO3166-1", "country_code"].findSome? tags.get?).map Text.lower

end Gazetteer.Osm

namespace Gazetteer.Place

open Gazetteer.Osm

variable {K : Type}

/-- The place with what one tag says about it. -/
def withTag (place : Place K) (tag : String × String) : Place K :=
  match TagRole.ofKey tag.1 with
  | .name language => place.addName language tag.2
  | .addressPart part => { place with address := place.address.insert part tag.2 }
  | .wikidata => { place with wikidata := some tag.2 }
  | .extra => { place with extraTags := place.extraTags.insert tag.1 tag.2 }
  | .other => place

/-- The place with what all tags say about it.  Only a country has a country code. -/
def withTags (place : Place K) (tags : Tags) : Place K :=
  let tagged := tags.entries.foldl withTag place
  if tagged.addressRank = Rank.country then { tagged with countryCode := countryCode? tags }
  else tagged

end Gazetteer.Place
