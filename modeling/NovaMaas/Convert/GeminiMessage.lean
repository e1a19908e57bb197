/-
  Answers of the Gemini API (relaykit/dto/gemini.go), as the converters from and to chat completions read and write them.

  An answer has candidates, a candidate has parts, and a part is a text, a thought, inline data, a call of a function, or
  code and its result.  The arguments of a call are a JSON object, of a type `J`.  Of the usage the three totals are kept.
-/
import NovaMaas.Convert.ChatStream

namespace NovaMaas.Convert

structure GeminiFunctionCall (J : Type) where
  functionName : String
  arguments    : J

structure GeminiInlineData where
  mimeType : String
  data     : String

structure GeminiPartExecutableCode where
  language : String
  code     : String

structure GeminiPart (J : Type) where
  text                : String := ""
  thought             : Bool := false
  inlineData          : Option GeminiInlineData := none
  functionCall        : Option (GeminiFunctionCall J) := none
  executableCode      : Option GeminiPartExecutableCode := none
  /-- The output of `CodeExecutionResult`. -/
  codeExecutionResult : Option String := none

structure GeminiChatCandidate (J : Type) where
  index        : ℤ := 0
  parts        : List (GeminiPart J) := []
  finishReason : Option String := none

structure GeminiChatResponse (J : Type) where
  candidates    : List (GeminiChatCandidate J) := []
  usageMetadata : GeminiUsageMetadata := {}

end NovaMaas.Convert
