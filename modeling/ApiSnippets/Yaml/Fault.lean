/-!
# Refused YAML texts

Why a text gives no document. Most texts that are refused are not YAML at
all. A text that is written like a value but has none, such as the day
`2024-02-30`, is refused for a reason of its own.
-/

namespace ApiSnippets

namespace Yaml

/-- Why a text gives no document. -/
inductive ReadFault where
  /-- The text is not YAML. -/
  | malformed
  /-- A number, a character, a day or a moment that does not exist. -/
  | noValue
  /-- A number beyond every range. -/
  | beyond
  /-- A truth value of another name. -/
  | unknownWord
  /-- A date that is not written like one. -/
  | notDate
  /-- A date that is no text at all. -/
  | notText
  /-- A number without a character. -/
  | emptyNumber
  /-- A text that is to be found inside itself. -/
  | endless
  deriving DecidableEq, Repr

/-- A value, refused as malformed when there is none. -/
def orMalformed {α : Type} : Option α → Except ReadFault α
  | some v => .ok v
  | none => .error .malformed

end Yaml

end ApiSnippets
