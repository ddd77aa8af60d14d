import PageScript.Dimension
import PageScript.Runner
import PageScript.Settings

/-!
# Directives

The commands of a start page script. A directive counts its parameters before it looks at them, and
writes the settings only when it accepts them all.
-/
namespace PageScript

inductive Directive where
  | weatherCoords
  | link
  | backgroundSavepath
  | backgroundMaxdim
  | imageSubreddit
  deriving DecidableEq, Repr

/-- Where a part lies within a state. -/
structure Focus (σ α : Type) where
  get : σ → α
  set : α → σ → σ

def Focus.whole {σ : Type} : Focus σ σ := ⟨id, fun a _ => a⟩

namespace Directive

def all : List Directive :=
  [weatherCoords, link, backgroundSavepath, backgroundMaxdim, imageSubreddit]

def command : Directive → String
  | weatherCoords => "weather-coords"
  | link => "link"
  | backgroundSavepath => "background-savepath"
  | backgroundMaxdim => "background-maxdim"
  | imageSubreddit => "image-subreddit"

def arity : Directive → Nat
  | weatherCoords | link => 2
  | backgroundSavepath | backgroundMaxdim | imageSubreddit => 1

def invalid (d : Directive) (value : String) (fault : Dimension.Fault) : DirectiveError :=
  .invalidValue d.command value fault.reason

def maxdim (value : String) : Except DirectiveError UInt32 :=
  match Dimension.parse value with
  | .ok n => .ok n
  | .error fault => .error (backgroundMaxdim.invalid value fault)

def apply (d : Directive) (params : List String) (s : Settings) : Except DirectiveError Settings :=
  match d, params with
  | weatherCoords, [lat, lon] => .ok { s with weatherCoords := some ⟨lat, lon⟩ }
  | link, [title, url] => .ok { s with links := s.links ++ [⟨title, url⟩] }
  | backgroundSavepath, [path] => .ok { s with backgroundSavepath := some path }
  | backgroundMaxdim, [value] => do
    let n ← maxdim value
    .ok { s with backgroundMaxdim := some n }
  | imageSubreddit, [name] => .ok { s with imageSubreddit := some name }
  | d, params => .error (.arity d.command d.arity params.length)

def handler {σ : Type} (focus : Focus σ Settings) (d : Directive) : Handler σ := fun params => do
  let s ← get
  match d.apply params (focus.get s) with
  | .ok settings => set (focus.set settings s)
  | .error e => throw (.directive e)

theorem apply_of_arity_ne {d : Directive} {params : List String} (h : params.length ≠ d.arity)
    (s : Settings) : d.apply params s = .error (.arity d.command d.arity params.length) := by
  unfold apply
  split <;> simp_all [arity]

theorem call_handler {σ : Type} (focus : Focus σ Settings) (d : Directive) (params : List String)
    (s : σ) :
    (d.handler focus).call params s =
      match d.apply params (focus.get s) with
      | .ok settings => (.ok (), focus.set settings s)
      | .error e => (.error (.directive e), s) := by
  change Handler.call (fun _ => match d.apply params (focus.get s) with
    | .ok settings => set (focus.set settings s)
    | .error e => throw (.directive e)) params s = _
  cases d.apply params (focus.get s) <;> rfl

end Directive

namespace Registry

variable {σ : Type}

def registerDirectives (focus : Focus σ Settings) (r : Registry σ) : Registry σ :=
  Directive.all.foldl (fun r d => r.register d.command (d.handler focus)) r

def directives (focus : Focus σ Settings) : Registry σ := builtins.registerDirectives focus

end Registry

/-- The settings of a script that starts from none. -/
def Settings.ofScript (source : Source) : Except LineError Settings :=
  let finish := (Registry.directives .whole).run source Settings.initial
  finish.result.map fun _ => finish.shared

end PageScript
