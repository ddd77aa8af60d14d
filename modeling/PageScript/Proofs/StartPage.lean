import PageScript.Directive
import PageScript.Proofs.Dimensions
import PageScript.Proofs.Running

/-!
# Start page scripts

What a start page script means, said of its commands and not of the calls that they cause. A run
stops at the first command that is refused, and whether one is does not depend on the settings. The
settings it leaves are those of the commands before: a value is that of the last command of its
name, and the links are all that were given, in order.
-/
namespace PageScript.StartPage

def signatures : List (String × ℕ) :=
  [("weather-coords", 2), ("link", 2), ("background-savepath", 1), ("background-maxdim", 1),
    ("image-subreddit", 1)]

/-- Why a command is refused. Its parameters are counted before any of them is looked at. -/
inductive Refused (c : Command) : Cause → Prop
  | unknown (other : c.name ≠ "nop") (unlisted : c.name ∉ signatures.map Prod.fst) :
      Refused c (.unknownCommand c.name)
  | arity {expected : ℕ} (listed : (c.name, expected) ∈ signatures)
      (wrong : c.params.length ≠ expected) :
      Refused c (.handler (.directive (.arity c.name expected c.params.length)))
  | value {value : String} {fault : Dimension.Fault} (named : c.name = "background-maxdim")
      (single : c.params = [value]) (unfit : ∀ n, ¬ Dimension.Denotes value n)
      (found : Dimension.parse value = .error fault) :
      Refused c (.handler (.directive (.invalidValue c.name value fault.reason)))

def Accepted (c : Command) : Prop := ∀ cause, ¬ Refused c cause

/-- Which of the commands take effect and what the result is: all of them and the ending of the
source, or those before the first that is refused and its error. -/
inductive Ends (ending : Except LineError Unit) (commands : List Command) :
    List Command → Except LineError Unit → Prop
  | ended (accepted : ∀ c ∈ commands, Accepted c) : Ends ending commands commands ending
  | refused {before rest : List Command} {c : Command} {cause : Cause}
      (split : commands = before ++ c :: rest) (accepted : ∀ c ∈ before, Accepted c)
      (refused : Refused c cause) : Ends ending commands before (.error ⟨c.line, cause⟩)

def lastParams (name : String) (cs : List Command) : Option (List String) :=
  (cs.filter (·.name = name)).getLast?.map Command.params

/-- A value is the one that the last command of a name gives, and without such a command the old. -/
def Holds {α : Type} (name : String) (Gives : List String → α → Prop) (cs : List Command)
    (before after : Option α) : Prop :=
  match lastParams name cs with
  | none => after = before
  | some params => ∃ a, Gives params a ∧ after = some a

/-- The links that the commands give stand behind the old ones, in order. -/
def Adds (cs : List Command) (before after : List Link) : Prop :=
  ∃ added : List Link, after = before ++ added ∧
    added.map (fun l => [l.title, l.url]) = (cs.filter (·.name = "link")).map Command.params

/-- What commands that are all accepted do to the settings. -/
structure Meaning (before : Settings) (cs : List Command) (after : Settings) : Prop where
  weatherCoords : Holds "weather-coords" (fun params a => params = [a.lat, a.lon]) cs
    before.weatherCoords after.weatherCoords
  links : Adds cs before.links after.links
  backgroundSavepath : Holds "background-savepath" (fun params a => params = [a]) cs
    before.backgroundSavepath after.backgroundSavepath
  backgroundMaxdim : Holds "background-maxdim"
    (fun params n => ∃ value, params = [value] ∧ Dimension.Denotes value n) cs
    before.backgroundMaxdim after.backgroundMaxdim
  imageSubreddit : Holds "image-subreddit" (fun params a => params = [a]) cs
    before.imageSubreddit after.imageSubreddit

section Holds

variable {α : Type} {name : String} {Gives : List String → α → Prop} {xs ys : List Command}
  {c : Command} {a b d : Option α} {v : α}

theorem lastParams_append (name : String) (xs ys : List Command) :
    lastParams name (xs ++ ys) = (lastParams name ys).or (lastParams name xs) := by
  simp only [lastParams, List.filter_append, List.getLast?_append]
  cases (ys.filter (·.name = name)).getLast? <;> rfl

theorem lastParams_singleton (name : String) (c : Command) :
    lastParams name [c] = if c.name = name then some c.params else none := by
  unfold lastParams
  by_cases h : c.name = name <;> simp [h]

theorem holds_nil : Holds name Gives [] a a := rfl

theorem holds_of_ne (h : c.name ≠ name) : Holds name Gives [c] a a := by
  simp [Holds, lastParams_singleton, h]

theorem holds_of_eq (h : c.name = name) (hg : Gives c.params v) :
    Holds name Gives [c] a (some v) := by
  simp [Holds, lastParams_singleton, h, hg]

theorem Holds.append (hx : Holds name Gives xs a b) (hy : Holds name Gives ys b d) :
    Holds name Gives (xs ++ ys) a d := by
  unfold Holds at hx hy ⊢
  rw [lastParams_append]
  cases hl : lastParams name ys with
  | none =>
    rw [hl] at hy
    rw [Option.none_or, hy]
    exact hx
  | some params =>
    rw [hl] at hy
    exact hy

end Holds

section Adds

variable {xs ys : List Command} {c : Command} {l : Link} {before between after : List Link}

theorem adds_nil : Adds [] before before := ⟨[], by simp, rfl⟩

theorem adds_of_ne (h : c.name ≠ "link") : Adds [c] before before := ⟨[], by simp, by simp [h]⟩

theorem adds_of_eq (h : c.name = "link") (hl : c.params = [l.title, l.url]) :
    Adds [c] before (before ++ [l]) :=
  ⟨[l], rfl, by simp [h, hl]⟩

theorem Adds.append (hx : Adds xs before between) (hy : Adds ys between after) :
    Adds (xs ++ ys) before after := by
  obtain ⟨xl, rfl, hxl⟩ := hx
  obtain ⟨yl, rfl, hyl⟩ := hy
  exact ⟨xl ++ yl, List.append_assoc _ _ _, by simp [hxl, hyl]⟩

end Adds

theorem meaning_nil (s : Settings) : Meaning s [] s where
  weatherCoords := holds_nil
  links := adds_nil
  backgroundSavepath := holds_nil
  backgroundMaxdim := holds_nil
  imageSubreddit := holds_nil

/-- Later commands go on from what the earlier ones left. -/
theorem Meaning.append {s t u : Settings} {xs ys : List Command} (hx : Meaning s xs t)
    (hy : Meaning t ys u) : Meaning s (xs ++ ys) u where
  weatherCoords := hx.weatherCoords.append hy.weatherCoords
  links := hx.links.append hy.links
  backgroundSavepath := hx.backgroundSavepath.append hy.backgroundSavepath
  backgroundMaxdim := hx.backgroundMaxdim.append hy.backgroundMaxdim
  imageSubreddit := hx.imageSubreddit.append hy.imageSubreddit

theorem mem_signatures {name : String} {n : ℕ} :
    (name, n) ∈ signatures ↔ ∃ d : Directive, name = d.command ∧ n = d.arity := by
  constructor
  · intro h
    simp only [signatures, List.mem_cons, Prod.mk.injEq, List.not_mem_nil, or_false] at h
    obtain h | h | h | h | h := h
    · exact ⟨.weatherCoords, h⟩
    · exact ⟨.link, h⟩
    · exact ⟨.backgroundSavepath, h⟩
    · exact ⟨.backgroundMaxdim, h⟩
    · exact ⟨.imageSubreddit, h⟩
  · rintro ⟨d, rfl, rfl⟩
    cases d <;> decide

theorem mem_names {name : String} :
    name ∈ signatures.map Prod.fst ↔ ∃ d : Directive, name = d.command := by
  constructor
  · intro h
    obtain ⟨⟨_, n⟩, hsig, rfl⟩ := List.mem_map.mp h
    obtain ⟨d, he, -⟩ := mem_signatures.mp hsig
    exact ⟨d, he⟩
  · rintro ⟨d, rfl⟩
    exact List.mem_map.mpr ⟨_, mem_signatures.mpr ⟨d, rfl, rfl⟩, rfl⟩

theorem lookup_directive {σ : Type} (focus : Focus σ Settings) (d : Directive) :
    (Registry.directives focus).lookup d.command = some (d.handler focus) := by
  cases d <;> simp [Registry.directives, Registry.registerDirectives, Directive.all,
    Registry.lookup_register, Directive.command]

theorem lookup_of_ne_directive {σ : Type} (focus : Focus σ Settings) {name : String}
    (h : ∀ d : Directive, name ≠ d.command) :
    (Registry.directives focus).lookup name = if name = "nop" then some .nop else none := by
  have hempty : (Registry.empty : Registry σ).lookup name = none := rfl
  simp only [Registry.directives, Registry.registerDirectives, Directive.all, List.foldl_cons,
    List.foldl_nil, Registry.builtins, Registry.lookup_register, h, if_false, hempty,
    Registry.nopCommand]

/-- An accepted directive does to the settings what it means. -/
theorem exists_apply_of_accepted {c : Command} {d : Directive} (h : Accepted c)
    (hd : c.name = d.command) (s : Settings) :
    ∃ t, d.apply c.params s = .ok t ∧ Meaning s [c] t := by
  have hlength : c.params.length = d.arity := by
    by_contra hne
    exact h _ (.arity (mem_signatures.mpr ⟨d, hd, rfl⟩) hne)
  have hother : ∀ {name}, d.command ≠ name → c.name ≠ name := fun hne => hd ▸ hne
  cases d with
  | weatherCoords =>
    obtain ⟨lat, lon, hp⟩ := List.length_eq_two.mp hlength
    rw [hp]
    exact ⟨_, rfl, holds_of_eq hd hp, adds_of_ne (hother (by decide)),
      holds_of_ne (hother (by decide)), holds_of_ne (hother (by decide)),
      holds_of_ne (hother (by decide))⟩
  | link =>
    obtain ⟨title, url, hp⟩ := List.length_eq_two.mp hlength
    rw [hp]
    exact ⟨_, rfl, holds_of_ne (hother (by decide)), adds_of_eq hd hp,
      holds_of_ne (hother (by decide)), holds_of_ne (hother (by decide)),
      holds_of_ne (hother (by decide))⟩
  | backgroundSavepath =>
    obtain ⟨path, hp⟩ := List.length_eq_one_iff.mp hlength
    rw [hp]
    exact ⟨_, rfl, holds_of_ne (hother (by decide)), adds_of_ne (hother (by decide)),
      holds_of_eq hd hp, holds_of_ne (hother (by decide)), holds_of_ne (hother (by decide))⟩
  | backgroundMaxdim =>
    obtain ⟨value, hp⟩ := List.length_eq_one_iff.mp hlength
    cases hv : Dimension.parse value with
    | error fault =>
      have hunfit : ∀ n, ¬ Dimension.Denotes value n := by
        intro n hn
        have hok := Dimension.parse_eq_ok_iff.mpr hn
        simp [hv] at hok
      exact absurd (Refused.value hd hp hunfit hv) (h _)
    | ok n =>
      have happly : Directive.backgroundMaxdim.apply [value] s =
          .ok { s with backgroundMaxdim := some n } := by
        simp [Directive.apply, Directive.maxdim, hv, bind, Except.bind]
      rw [hp]
      exact ⟨_, happly, holds_of_ne (hother (by decide)), adds_of_ne (hother (by decide)),
        holds_of_ne (hother (by decide)),
        holds_of_eq hd ⟨value, hp, Dimension.parse_eq_ok_iff.mp hv⟩,
        holds_of_ne (hother (by decide))⟩
  | imageSubreddit =>
    obtain ⟨name, hp⟩ := List.length_eq_one_iff.mp hlength
    rw [hp]
    exact ⟨_, rfl, holds_of_ne (hother (by decide)), adds_of_ne (hother (by decide)),
      holds_of_ne (hother (by decide)), holds_of_ne (hother (by decide)),
      holds_of_eq hd hp⟩

abbrev registry : Registry Settings := Registry.directives .whole

theorem accepted_call {c : Command} (h : Accepted c) (s : Settings) :
    (∃ handler, registry.lookup c.name = some handler ∧ (handler.call c.params s).1 = .ok ()) ∧
      Meaning s [c] (registry.effect c s) := by
  by_cases hd : ∃ d : Directive, c.name = d.command
  · obtain ⟨d, hd⟩ := hd
    obtain ⟨t, happly, hmeaning⟩ := exists_apply_of_accepted h hd s
    have hl : registry.lookup c.name = some (d.handler .whole) := by rw [hd, lookup_directive]
    have hc : (d.handler .whole).call c.params s = (.ok (), t) := by
      rw [Directive.call_handler]
      simp [Focus.whole, happly]
    refine ⟨⟨_, hl, by rw [hc]⟩, ?_⟩
    rw [Registry.effect_of_lookup hl, hc]
    exact hmeaning
  · have hne : ∀ d : Directive, c.name ≠ d.command := fun d he => hd ⟨d, he⟩
    have hnop : c.name = "nop" := by
      by_contra hn
      exact h _ (.unknown hn fun hmem => hd (mem_names.mp hmem))
    have hl : registry.lookup c.name = some .nop := by
      rw [lookup_of_ne_directive .whole hne, if_pos hnop]
    have hother : ∀ {name}, "nop" ≠ name → c.name ≠ name := fun he => hnop ▸ he
    refine ⟨⟨_, hl, by rw [Handler.call_nop]⟩, ?_⟩
    rw [Registry.effect_of_lookup hl, Handler.call_nop]
    exact ⟨holds_of_ne (hother (by decide)), adds_of_ne (hother (by decide)),
      holds_of_ne (hother (by decide)), holds_of_ne (hother (by decide)),
      holds_of_ne (hother (by decide))⟩

theorem sweep_of_apply_error {c : Command} {d : Directive} {e : DirectiveError} {s : Settings}
    (hd : c.name = d.command) (he : d.apply c.params s = .error e)
    (ending : Except LineError Unit) (cs : List Command) :
    registry.sweep ending (c :: cs) s = ⟨[c], .error ⟨c.line, .handler (.directive e)⟩, s⟩ := by
  have hl : registry.lookup c.name = some (d.handler .whole) := by rw [hd, lookup_directive]
  have hc : (d.handler .whole).call c.params s = (.error (.directive e), s) := by
    rw [Directive.call_handler]
    simp [Focus.whole, he]
  exact Registry.sweep_refused ending cs hl hc

theorem sweep_of_refused {c : Command} {cause : Cause} (h : Refused c cause)
    (ending : Except LineError Unit) (cs : List Command) (s : Settings) :
    (registry.sweep ending (c :: cs) s).result = .error ⟨c.line, cause⟩ ∧
      (registry.sweep ending (c :: cs) s).shared = s := by
  cases h with
  | unknown other unlisted =>
    have hne : ∀ d : Directive, c.name ≠ d.command :=
      fun d hd => unlisted (mem_names.mpr ⟨d, hd⟩)
    have hl : registry.lookup c.name = none := by
      rw [lookup_of_ne_directive .whole hne, if_neg other]
    rw [Registry.sweep_unknown ending cs s hl]
    exact ⟨rfl, rfl⟩
  | arity listed wrong =>
    obtain ⟨d, hd, rfl⟩ := mem_signatures.mp listed
    rw [sweep_of_apply_error hd (Directive.apply_of_arity_ne wrong s), hd]
    exact ⟨rfl, rfl⟩
  | @value value fault named single unfit found =>
    have happly : Directive.backgroundMaxdim.apply c.params s =
        .error (.invalidValue c.name value fault.reason) := by
      rw [single, named]
      simp [Directive.apply, Directive.maxdim, Directive.invalid, Directive.command, found, bind,
        Except.bind]
    rw [sweep_of_apply_error named happly]
    exact ⟨rfl, rfl⟩

end PageScript.StartPage
