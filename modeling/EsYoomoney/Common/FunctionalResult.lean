import Mathlib.Data.List.Basic

namespace Yoomoney.FunctionalResult

/-- A struct without fields: its constructor's parameters are kept nowhere. -/
structure OperationError where
deriving DecidableEq, Repr

def OperationError.new (_name _description : String) : OperationError := {}

/-- A nullable text, `none` for null. -/
def isNullOrEmpty : Option String → Bool
  | none => true
  | some text => text == ""

structure Result where
  error : Option String

def Result.isSuccess (result : Result) : Bool := isNullOrEmpty result.error

def Result.isError (result : Result) : Bool := !result.isSuccess

structure ResultT (TValue : Type) extends Result where
  value : TValue

structure ApplicationValidationResult extends Result where
  errors : List OperationError

def ApplicationValidationResult.withErrors (errors : List OperationError) : ApplicationValidationResult :=
  { error := some "Validation error", errors }

structure ApplicationValidationResultT (TValue : Type) extends ResultT TValue where
  errors : List OperationError

def ApplicationValidationResultT.withErrors {TValue : Type} (defaultValue : TValue) (errors : List OperationError) :
    ApplicationValidationResultT TValue :=
  { error := some "Validation error", value := defaultValue, errors }

/-- `Result` or `Result<TValue>`, the latter with the value C# gives a `TValue` that nothing sets. -/
inductive ResponseType where
  | result
  | resultT (TValue : Type) (defaultValue : TValue)

namespace ResponseType

def Own : ResponseType → Type
  | result => Result
  | resultT TValue _ => ResultT TValue

def Validation : ResponseType → Type
  | result => ApplicationValidationResult
  | resultT TValue _ => ApplicationValidationResultT TValue

end ResponseType

/-- An object of the response type: of the class itself, or of the sealed class under it that has errors. -/
inductive Response (responseType : ResponseType) where
  | own (response : responseType.Own)
  | validation (response : responseType.Validation)

namespace Response

def toResult : (responseType : ResponseType) → Response responseType → Result
  | .result, own response => response
  | .result, validation response => ApplicationValidationResult.toResult response
  | .resultT _ _, own response => ResultT.toResult response
  | .resultT _ _, validation response => (ApplicationValidationResultT.toResultT response).toResult

variable {responseType : ResponseType}

def isError (response : Response responseType) : Bool := (response.toResult responseType).isError

def errors : (responseType : ResponseType) → Response responseType → Option (List OperationError)
  | _, own _ => none
  | .result, validation response => some (ApplicationValidationResult.errors response)
  | .resultT _ _, validation response => some (ApplicationValidationResultT.errors response)

end Response

end Yoomoney.FunctionalResult
