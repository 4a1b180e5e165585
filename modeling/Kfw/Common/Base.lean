import Kfw.Lib.Exec

namespace kfw

/-- Return codes of the framework; the negative ones are errors. -/
abbrev ret_t := Int

def kComponentCommon : BitVec 32 := 0

def make_err_ret (module_id err_code : BitVec 32) : ret_t :=
  (0x80000000#32 ||| module_id <<< 16 ||| err_code).toInt

def kOk : ret_t := 0
def kEArgument : ret_t := make_err_ret kComponentCommon 1
def kEOutOfMemory : ret_t := make_err_ret kComponentCommon 3
def kEFormat : ret_t := make_err_ret kComponentCommon 4
def kETimeout : ret_t := make_err_ret kComponentCommon 5
def kEInvalidOperation : ret_t := make_err_ret kComponentCommon 6
def kEResource : ret_t := make_err_ret kComponentCommon 7
def kEDisposed : ret_t := make_err_ret kComponentCommon 8
def kENotSupported : ret_t := make_err_ret kComponentCommon 9
def kEUnknown : ret_t := make_err_ret kComponentCommon 255

def is_failed (r : ret_t) : Bool := r < 0

@[simp] theorem is_failed_kOk : is_failed kOk = false := rfl

/-- `RetVal<T>`: a return code together with a value. -/
structure RetVal (T : Type) where
  ret : ret_t
  val : T
  deriving DecidableEq

/-- The two ways a call can end without returning. -/
inductive Fault where
  /-- a read, write or free through a pointer that does not allow it -/
  | invalid_access
  /-- `kfw_system_error`, which resets the controller -/
  | system_error (r : ret_t)
  deriving DecidableEq

/-- A call of the framework: its result, a fault, or no answer within the fuel. -/
abbrev Exec (α : Type) := exec.Result Fault α

/-- Memory addresses; `nullptr` is the address zero. -/
abbrev Addr := Nat

def nullptr : Addr := 0

end kfw
