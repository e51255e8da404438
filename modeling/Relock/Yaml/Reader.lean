import Relock.Config.Draft
import Relock.Yaml.Lexer
import Relock.Yaml.Node.Parser

/-!
# Reading of configurations

The configuration in a YAML text.
-/

namespace Relock

/-- The document that a YAML text holds. -/
def Yaml.read (text : String) : Option Document := do
  (← Node.ofTokens? (← tokens? text)).toDocument?

namespace Config

/-- The valid configuration that a YAML text holds. -/
def ofYaml (text : String) : Except ConfigError Config :=
  match Yaml.read text with
  | some document => ofDocument document
  | none => throw (.malformed "the text is no mapping")

end Config

end Relock
