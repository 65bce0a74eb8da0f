import Leyu.Framework.Crlf

/-!
# Names of the platform

The error codes of the SDK that the firmware returns or tests, and the fixed texts that pass
between the firmware and the modem.
-/

namespace Leyu

open Framework

/-- `esp_err_t`, as far as the modelled code names it. -/
inductive EspErr
  | ok | fail | noMem | invalidArg | invalidState | invalidSize | notFound | timeout
  | notFinished
  deriving DecidableEq, Repr

def ata : Text := ['A', 'T', 'A']

def ath : Text := ['A', 'T', 'H']

/-- `AT_RESULT_CODE_SUCCESS` -/
def resultOk : Text := ['O', 'K']

/-- `AT_RESULT_CODE_ERROR` -/
def resultError : Text := ['E', 'R', 'R', 'O', 'R']

/-- `AT_RESULT_CODE_NO_CARRIER` -/
def noCarrier : Text := ['N', 'O', ' ', 'C', 'A', 'R', 'R', 'I', 'E', 'R']

def ring : Text := ['R', 'I', 'N', 'G']

def clccPrefix : Text := ['+', 'C', 'L', 'C', 'C', ':']

end Leyu
