import PageScript.Json
import PageScript.Settings

/-!
# Settings as JSON

Settings are written as an object with its members in the order of their names. They are read back
from an object, where members with other names are ignored and an option may be missing or null,
or from a list of exactly the fields in the order in which they are declared.
-/
namespace PageScript

namespace Json

def asText? : Json → Option String
  | text s => some s
  | _ => none

/-- A whole number below `2 ^ 32`. -/
def asWord? : Json → Option UInt32
  | number n => if 0 ≤ n ∧ n < UInt32.size then some (UInt32.ofNat n.toNat) else none
  | _ => none

def asOption? {α : Type} (read : Json → Option α) : Json → Option (Option α)
  | null => some none
  | v => (read v).map some

def asList? {α : Type} (read : Json → Option α) : Json → Option (List α)
  | list items => items.mapM read
  | _ => none

/-- The values of the named members, null where there is none; or a list of as many values. -/
def fields? (names : List String) : Json → Option (List Json)
  | object members => some (names.map fun name => (member? members name).getD null)
  | list items => if items.length = names.length then some items else none
  | _ => none

end Json

def WeatherCoords.toJson (c : WeatherCoords) : Json :=
  .object [("lat", .text c.lat), ("lon", .text c.lon)]

def WeatherCoords.ofJson? (v : Json) : Option WeatherCoords := do
  match ← v.fields? ["lat", "lon"] with
  | [lat, lon] => some ⟨← lat.asText?, ← lon.asText?⟩
  | _ => none

def Link.toJson (l : Link) : Json :=
  .object [("title", .text l.title), ("url", .text l.url)]

def Link.ofJson? (v : Json) : Option Link := do
  match ← v.fields? ["title", "url"] with
  | [title, url] => some ⟨← title.asText?, ← url.asText?⟩
  | _ => none

namespace Settings

def toJson (s : Settings) : Json :=
  .object [
    ("background_maxdim", .ofOption (fun n => .number n.toNat) s.backgroundMaxdim),
    ("background_savepath", .ofOption .text s.backgroundSavepath),
    ("image_subreddit", .ofOption .text s.imageSubreddit),
    ("links", .list (s.links.map Link.toJson)),
    ("weather_coords", .ofOption WeatherCoords.toJson s.weatherCoords)]

def ofJson? (v : Json) : Option Settings := do
  match ← v.fields? ["weather_coords", "links", "background_savepath", "background_maxdim",
    "image_subreddit"] with
  | [coords, links, savepath, maxdim, subreddit] =>
    some {
      weatherCoords := ← coords.asOption? WeatherCoords.ofJson?
      links := ← links.asList? Link.ofJson?
      backgroundSavepath := ← savepath.asOption? Json.asText?
      backgroundMaxdim := ← maxdim.asOption? Json.asWord?
      imageSubreddit := ← subreddit.asOption? Json.asText? }
  | _ => none

end Settings

end PageScript
