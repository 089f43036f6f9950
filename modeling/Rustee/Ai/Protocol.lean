/-
# Rustee.Ai.Protocol -- tool calls and the events of a provider's stream

`rustee-ai/src/protocol/tool.rs` and the event type of `src/provider.rs`.  A tool call has an
identifier and a name that `ToolCall::new` has checked; arguments and results are JSON.
-/
import Rustee.Ai.Usage
import Rustee.Foundation.Json

namespace Rustee.Ai

set_option autoImplicit false

open Rustee.Foundation

/-! ## Tools -/

def maxToolNameBytes : Nat := 255

def maxToolCallIdBytes : Nat := 255

inductive ToolError where
  | invalidName
  | toolNameTooLong
  | blankCallId
  | toolCallIdTooLong
  | toolCallIdContainsNul
  deriving DecidableEq, Repr

def validToolNameChar (c : Char) : Bool := c.isAlphanum || c == '_' || c == '-' || c == '.'

def validateToolName (name : String) : Except ToolError Unit :=
  if byteLen name > maxToolNameBytes then .error .toolNameTooLong
  else if name = "" || !name.toList.all validToolNameChar then .error .invalidName
  else .ok ()

/-- `ToolCall`; the last two fields are what `new` checks. -/
structure ToolCall where
  id : String
  name : String
  arguments : Json
  id_valid : isBoundedText maxToolCallIdBytes id = true
  name_valid : validateToolName name = .ok ()

def ToolCall.new (id name : String) (arguments : Json) : Except ToolError ToolCall :=
  if blank : isBlank id then .error .blankCallId
  else if long : byteLen id > maxToolCallIdBytes then .error .toolCallIdTooLong
  else if nul : containsNul id then .error .toolCallIdContainsNul
  else
    match valid : validateToolName name with
    | .error error => .error error
    | .ok () =>
      .ok {
        id, name, arguments
        id_valid := by simpa [isBoundedText, blank, nul] using long
        name_valid := valid
      }

structure ToolResult where
  callId : String
  name : String
  content : Json

/-! ## Streams -/

inductive AiStreamEvent where
  | textDelta (delta : String)
  | toolCall (call : ToolCall)
  | toolResult (result : ToolResult)
  | completed (usage : Usage)

/-- `matches!(event, AiStreamEvent::Completed(_))`. -/
def AiStreamEvent.isCompleted : AiStreamEvent → Bool
  | .completed _ => true
  | _ => false

end Rustee.Ai
