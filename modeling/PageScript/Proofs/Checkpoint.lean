import PageScript.Proofs.Concatenation
import PageScript.Proofs.JsonTexts
import PageScript.Proofs.StartPage
import PageScript.Settings.Json

/-!
# Checkpoints

Settings are read back from their JSON as they were, in whatever order its members stand. Settings
are all that a start page script leaves to what follows it: a run over the rest of a script, from
settings that were written and read back, ends as the run over the whole does.
-/
namespace PageScript

namespace Json

/-- What an option is written as: null, or what its value is written as. -/
def WritesOption {α : Type} (Writes : α → Json → Prop) : Option α → Json → Prop
  | none, v => v = null
  | some a, v => Writes a v

theorem HasMembers.fields? {v : Json} {fields : List (String × Json)} (h : v.HasMembers fields) :
    v.fields? (fields.map Prod.fst) = some (fields.map Prod.snd) := by
  obtain ⟨members, rfl, hmembers⟩ := h
  have hvalues : (fields.map Prod.fst).map (fun name => (member? members name).getD null) =
      fields.map Prod.snd := by
    rw [List.map_map]
    exact List.map_congr_left fun f hf => by simp [hmembers f hf]
  rw [Json.fields?, hvalues]

theorem asOption?_of_read {α : Type} {read : Json → Option α} {v : Json} {a : α}
    (hread : read v = some a) (hnull : v ≠ null) : v.asOption? read = some (some a) := by
  cases v with
  | null => exact absurd rfl hnull
  | _ => simp [asOption?, hread]

theorem asOption?_ofOption {α : Type} {f : α → Json} {read : Json → Option α}
    (hread : ∀ a, read (f a) = some a) (hnull : ∀ a, f a ≠ null) (o : Option α) :
    (ofOption f o).asOption? read = some o := by
  cases o with
  | none => rfl
  | some a => exact asOption?_of_read (hread a) (hnull a)

theorem asOption?_of_writes {α : Type} {Writes : α → Json → Prop} {read : Json → Option α}
    {o : Option α} {v : Json} (h : WritesOption Writes o v)
    (hread : ∀ a v, Writes a v → read v = some a) (hnull : ∀ a, ¬ Writes a null) :
    v.asOption? read = some o := by
  cases o with
  | none =>
    obtain rfl : v = null := h
    rfl
  | some a =>
    have hv : Writes a v := h
    exact asOption?_of_read (hread a v hv) fun hn => hnull a (hn ▸ hv)

theorem asList?_of_writes {α : Type} {Writes : α → Json → Prop} {read : Json → Option α}
    {as : List α} {items : List Json} (h : List.Forall₂ Writes as items)
    (hread : ∀ a v, Writes a v → read v = some a) : (list items).asList? read = some as := by
  induction h with
  | nil => rfl
  | @cons a v as items ha _ ih =>
    have hrest : items.mapM read = some as := ih
    simp [asList?, List.mapM_cons, hread a v ha, hrest]

theorem asWord?_number (n : UInt32) : (number n.toNat).asWord? = some n := by
  have hlt : (n.toNat : ℤ) < UInt32.size := by exact_mod_cast n.toNat_lt
  rw [asWord?, if_pos ⟨by positivity, hlt⟩]
  simp

end Json

open Json (HasMembers WritesOption)

def WeatherCoords.Written (c : WeatherCoords) (v : Json) : Prop :=
  v.HasMembers [("lat", .text c.lat), ("lon", .text c.lon)]

def Link.Written (l : Link) (v : Json) : Prop :=
  v.HasMembers [("title", .text l.title), ("url", .text l.url)]

/-- A JSON value that holds the settings. -/
def Settings.Written (s : Settings) (v : Json) : Prop :=
  ∃ coords links, WritesOption WeatherCoords.Written s.weatherCoords coords ∧
    List.Forall₂ Link.Written s.links links ∧
    v.HasMembers [("weather_coords", coords), ("links", .list links),
      ("background_savepath", .ofOption .text s.backgroundSavepath),
      ("background_maxdim", .ofOption (fun n => .number n.toNat) s.backgroundMaxdim),
      ("image_subreddit", .ofOption .text s.imageSubreddit)]

theorem WeatherCoords.ofJson?_of_written {c : WeatherCoords} {v : Json} (h : c.Written v) :
    ofJson? v = some c := by
  have hfields := h.fields?
  simp only [List.map_cons, List.map_nil] at hfields
  simp [ofJson?, hfields, Json.asText?]

theorem Link.ofJson?_of_written {l : Link} {v : Json} (h : l.Written v) :
    ofJson? v = some l := by
  have hfields := h.fields?
  simp only [List.map_cons, List.map_nil] at hfields
  simp [ofJson?, hfields, Json.asText?]

theorem WeatherCoords.not_written_null (c : WeatherCoords) : ¬ c.Written .null := by
  rintro ⟨members, hnull, -⟩
  cases hnull

namespace Settings

theorem ofJson?_of_written {s : Settings} {v : Json} (h : s.Written v) : ofJson? v = some s := by
  obtain ⟨coords, links, hcoords, hlinks, hmembers⟩ := h
  have hfields := hmembers.fields?
  simp only [List.map_cons, List.map_nil] at hfields
  have hc : coords.asOption? WeatherCoords.ofJson? = some s.weatherCoords :=
    Json.asOption?_of_writes hcoords (fun _ _ => WeatherCoords.ofJson?_of_written)
      WeatherCoords.not_written_null
  have hl : (Json.list links).asList? Link.ofJson? = some s.links :=
    Json.asList?_of_writes hlinks fun _ _ => Link.ofJson?_of_written
  have htext : ∀ o : Option String, (Json.ofOption .text o).asOption? Json.asText? = some o :=
    Json.asOption?_ofOption (fun _ => rfl) (by simp)
  have hword : ∀ o : Option UInt32,
      (Json.ofOption (fun n => .number n.toNat) o).asOption? Json.asWord? = some o :=
    Json.asOption?_ofOption Json.asWord?_number (by simp)
  simp [ofJson?, hfields, hc, hl, htext, hword]

theorem written_toJson (s : Settings) : s.Written s.toJson := by
  refine ⟨.ofOption WeatherCoords.toJson s.weatherCoords, s.links.map Link.toJson, ?_, ?_, ?_⟩
  · cases s.weatherCoords with
    | none => rfl
    | some c => exact ⟨_, rfl, by simp [Json.member?, List.lookup_cons]⟩
  · rw [List.forall₂_map_right_iff, List.forall₂_same]
    exact fun l _ => ⟨_, rfl, by simp [Json.member?, List.lookup_cons]⟩
  · exact ⟨_, rfl, by simp [Json.member?, List.lookup_cons]⟩

end Settings

theorem Settings.run_of_ofScript {source : Source} {s : Settings} (h : ofScript source = .ok s) :
    ((Registry.directives .whole).run source initial).result = .ok () ∧
      ((Registry.directives .whole).run source initial).shared = s := by
  unfold ofScript at h
  cases hr : ((Registry.directives .whole).run source initial).result with
  | error e => simp [hr, Except.map] at h
  | ok => exact ⟨rfl, by simpa [hr, Except.map] using h⟩

/-- Settings can be written behind the closed lines of a script and read back for the rest of it.
What is read back is what was written, and the run over the rest leaves the same settings and comes
to the same result as the run over the whole, whose error, if it ends in one, is as many lines later
as the first part has newlines. -/
theorem resume_from_written {first second whole : Source} {s : Settings}
    (h : Source.Joins first second whole) (hc : ClosesLine first.bytes)
    (hs : Settings.ofScript first = .ok s) :
    let straight := (Registry.directives .whole).run whole Settings.initial
    s.Written s.toJson ∧ ∀ v, s.Written v → ∃ t, Settings.ofJson? v = some t ∧ t = s ∧
      let resumed := (Registry.directives .whole).run second t
      resumed.shared = straight.shared ∧
      straight.result = resumed.result.mapError (.later (first.bytes.count Lexer.newline)) := by
  intro straight
  refine ⟨s.written_toJson, fun v hv => ⟨s, Settings.ofJson?_of_written hv, rfl, ?_⟩⟩
  obtain ⟨hok, hshared⟩ := Settings.run_of_ofScript hs
  obtain ⟨-, hrest⟩ := (Registry.directives .whole).run_whole h hc Settings.initial
  obtain ⟨hresult, hsettings, -⟩ := hrest hok
  rw [hshared] at hresult hsettings
  exact ⟨hsettings.symm, hresult⟩

/-- The rest is resumed from a link that an escaped newline goes through. It is refused on its first
line, which is the fourth of the whole. -/
theorem resume_from_written_chunked :
    let first := Source.ofBytes "link Rust\\ Book a\\\nb\nweather-coords 1 2\n".toUTF8.data.toList
    let second := Source.ofBytes "background-maxdim 0\n".toUTF8.data.toList
    let whole := Source.ofEvents
      [.data "link Rust\\ Book a\\\nb\nweather-".toUTF8.data.toList,
        .failed (.plain .interrupted),
        .data "coords 1 2\nbackground-maxdim 0\n".toUTF8.data.toList]
    let s : Settings := ⟨some ⟨"1", "2"⟩, [⟨"Rust Book", "a\nb"⟩], none, none, none⟩
    let straight := (Registry.directives .whole).run whole Settings.initial
    Source.Joins first second whole ∧ ClosesLine first.bytes ∧ Settings.ofScript first = .ok s ∧
      ∃ t, Settings.ofJson? s.toJson = some t ∧ t = s ∧
        let resumed := (Registry.directives .whole).run second t
        resumed.shared = straight.shared ∧
        straight.result = resumed.result.mapError (.later 3) := by
  intro first second whole s straight
  have hj : Source.Joins first second whole := ⟨by decide, by cbv, by decide⟩
  have hc : ClosesLine first.bytes :=
    .inr ⟨"link Rust\\ Book a\\\nb\nweather-coords 1 2".toUTF8.data.toList, by cbv, by cbv⟩
  have hcommands : first.commands =
      [⟨"link", ["Rust Book", "a\nb"], 1⟩, ⟨"weather-coords", ["1", "2"], 3⟩] := by cbv
  have hs : Settings.ofScript first = .ok s := by
    obtain ⟨hresult, hshared, -⟩ :=
      (Registry.directives .whole).run_eq_sweep first Settings.initial
    rw [hcommands] at hresult hshared
    rw [Settings.ofScript, hresult, hshared]
    rfl
  obtain ⟨hwritten, hresume⟩ := resume_from_written hj hc hs
  exact ⟨hj, hc, hs, hresume s.toJson hwritten⟩

end PageScript
