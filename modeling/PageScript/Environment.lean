import PageScript.Path

namespace PageScript

abbrev Environment := String → Option String

namespace Environment

/-- The user's configuration directory. A relative `XDG_CONFIG_HOME` does not count, and an empty
`HOME` stands for the home of the account. -/
def configDir (env : Environment) (home : Option String := none) : String :=
  match (env "XDG_CONFIG_HOME").filter Path.isAbsolute with
  | some dir => dir
  | none =>
    match (env "HOME").filter (· ≠ "") <|> home with
    | some home => Path.below home ".config"
    | none => "~/.config"

/-- The configuration file: the one that is named, even by an empty text, or the usual one. -/
def configPath (env : Environment) (home : Option String := none) : String :=
  (env "CONFLANG_CONFIG").getD
    (Path.below (Path.below (env.configDir home) "conflang") "config.toml")

def defaultScript (env : Environment) (home : Option String := none) : String :=
  Path.below (Path.below (env.configDir home) "startpage") "config"

end Environment

end PageScript
