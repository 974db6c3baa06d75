import Mathlib.Data.List.Infix

/-!
# Validation of requests

The checks of `src/types/validation.rs`. Rust's `Display` of an `f32` is the argument `display`.
-/

namespace ApertureRouter

/-- The characters of a model name. -/
def isModelChar (c : Char) : Bool :=
  c.isAlphanum || c = '-' || c = '_' || c = '.' || c = '/' || c = ':'

def validateModelName (name : String) : Except String Unit :=
  if name.isEmpty then .error "Model name cannot be empty"
  else if 128 < name.utf8ByteSize then
    .error s!"Model name too long ({name.utf8ByteSize} chars, max 128)"
  else if ['.', '.'] <:+: name.toList then .error "Model name cannot contain '..'"
  else if !name.toList.all isModelChar then
    .error "Model name contains invalid characters. Only ASCII alphanumeric, '-', '_', '.', '/', and ':' are allowed"
  else .ok ()

def validateRole (role : String) : Except String Unit :=
  if role ∈ ["system", "user", "assistant", "tool"] then .ok ()
  else .error s!"Invalid role '{role}'. Must be 'system', 'user', 'assistant', or 'tool'"

def validateMessageContent (content : String) : Except String Unit :=
  if 1000000 < content.utf8ByteSize then
    .error s!"Message too long ({content.utf8ByteSize} chars, max 1MB)"
  else .ok ()

def maxTokensLimit : UInt32 := 1000000

def validateMaxTokens (maxTokens : UInt32) : Except String Unit :=
  if maxTokens = 0 then .error "max_tokens must be greater than 0"
  else if maxTokensLimit < maxTokens then .error s!"max_tokens exceeds limit of {maxTokensLimit}"
  else .ok ()

def validateTemperature (display : Float32 → String) (temperature : Float32) : Except String Unit :=
  if temperature.isNaN then .error "temperature must be a valid number"
  else if temperature < 0 then .error "temperature must be non-negative"
  else if 2 < temperature then .error s!"temperature too high ({display temperature}, max 2.0)"
  else .ok ()

def validateTopP (display : Float32 → String) (topP : Float32) : Except String Unit :=
  if 0 ≤ topP ∧ topP ≤ 1 then .ok ()
  else .error s!"top_p must be between 0.0 and 1.0, got {display topP}"

end ApertureRouter
