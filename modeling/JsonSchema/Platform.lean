import JsonSchema.Yaml.Tree

/-!
# The platform

What the commands rely on and do not contain: a reader of YAML, and the encoding of the locale. Whatever
is said about commands is said for every platform.
-/

namespace JsonSchema

structure YamlError where
  message : String

class Platform where
  readYaml : String → Except YamlError Yaml
  /-- What is read in UTF-8 from a file that a text has been written to in the encoding of the locale. -/
  inLocale : String → String

end JsonSchema
