import Leyu.Framework.Runs
import Leyu.Platform
import Mathlib.Algebra.Group.Nat.Defs

/-!
# The queue of AT commands

`uart_send_global_at_command` called by any number of tasks, and `uart_comm_task` that works the
queue off. A call stands at one of the points where its task can be interrupted, and so does the
worker; a step takes one of them to its next point, or lets time pass. The module has been
initialised. What the port delivers is text; a NUL byte is not received.
-/

namespace Leyu

open Framework

/-- `global_at_command_t`, with the call that has queued it. -/
structure GlobalAtCommand where
  call : Nat
  command : Text
  timeoutMs : Nat
  needResponse : Bool
  deriving DecidableEq, Repr

/-- `at_command_response_t`; nothing reads the time stamp. -/
structure AtCommandResponse where
  response : Text
  responseLen : Nat
  isValid : Bool
  deriving DecidableEq, Repr

/-- What `uart_send_global_at_command` returns. -/
inductive UartResult
  | ok | invalidArg | noMem | timeout | invalidResponse
  deriving DecidableEq, Repr

inductive CallPoint
  /-- In `xQueueSend`. -/
  | sending (since : Nat)
  /-- In `uart_wait_for_at_response`. -/
  | waiting (since : Nat)
  /-- The semaphore is taken, `is_valid` is not read yet. -/
  | taken
  | leaving
  | returned (result : UartResult)
  deriving DecidableEq, Repr

structure UartCall where
  command : Text
  timeoutMs : Nat
  point : CallPoint
  deriving DecidableEq, Repr

inductive WorkerPoint
  | idle
  | received (cmd : GlobalAtCommand)
  /-- Before the test of the loop that waits for the response. -/
  | waiting (cmd : GlobalAtCommand) (start : Nat) (buffer : Text)
  /-- In `uart_read_bytes`. -/
  | reading (cmd : GlobalAtCommand) (start : Nat) (buffer : Text)
  | storing (cmd : GlobalAtCommand) (responseReceived : Bool) (buffer : Text)
  | giving (cmd : GlobalAtCommand)
  deriving DecidableEq, Repr

/-- The semaphore carries the call whose command the give was made for. -/
structure UartComm where
  now : Nat
  calls : List UartCall
  globalAtCommandQueue : List GlobalAtCommand
  atResponseSem : Option Nat
  globalAtResponse : AtCommandResponse
  worker : WorkerPoint
  deriving DecidableEq, Repr

def uartCommBufSize : Nat := 1024

/-- The text read from the port holds a result code. -/
def HasCode (data : Text) : Prop := Occurs resultOk data ∨ Occurs resultError data

instance (data : Text) : Decidable (HasCode data) := by unfold HasCode; infer_instance

/-- `strcat` to the response buffer, where there is room. -/
def appendResponse (buffer data : Text) : Text :=
  if buffer.length + data.length < uartCommBufSize - 1 then buffer ++ data else buffer

inductive UartOp
  | tick (elapsed : Nat)
  | call (command : Text) (timeoutMs : Nat)
  | send (i : Nat)
  | sendTimeout (i : Nat)
  | take (i : Nat)
  | waitTimeout (i : Nat)
  | check (i : Nat)
  | ret (i : Nat)
  | receive
  | write (whole : Bool)
  | loop
  | read (data : Text)
  | store
  | give
  deriving DecidableEq, Repr

namespace UartComm

/-- `uart_comm_init`, with the task started. -/
def init : UartComm := ⟨0, [], [], none, ⟨[], 0, false⟩, .idle⟩

/-- The tick count has 32 bits. -/
def elapsed (s : UartComm) (since : Nat) : Nat := (s.now + 2 ^ 32 - since % 2 ^ 32) % 2 ^ 32

def move (s : UartComm) (i : Nat) (c : UartCall) (point : CallPoint) : UartComm :=
  { s with calls := s.calls.set i { c with point := point } }

/-- `uart_send_global_at_command` up to `xQueueSend`. -/
def begin (s : UartComm) (command : Text) (timeoutMs : Nat) : UartComm :=
  { s with calls := s.calls ++ [⟨command, timeoutMs,
      if 256 ≤ command.length then .returned .invalidArg else .sending s.now⟩] }

/-- The next step of call `i`, which stands at the point of `c`. -/
def send (s : UartComm) (i : Nat) (c : UartCall) : UartComm :=
  match c.point with
  | .sending _ =>
      if s.globalAtCommandQueue.length < 5 then
        let cmd : GlobalAtCommand := ⟨i, c.command, c.timeoutMs, 0 < c.timeoutMs⟩
        { s with globalAtCommandQueue := s.globalAtCommandQueue ++ [cmd] }.move i c
          (if cmd.needResponse then .waiting s.now else .returned .ok)
      else s
  | _ => s

def sendTimeout (pdMsToTicks : Nat → Nat) (s : UartComm) (i : Nat) (c : UartCall) : UartComm :=
  match c.point with
  | .sending since =>
      if 5 ≤ s.globalAtCommandQueue.length ∧ pdMsToTicks 1000 ≤ s.elapsed since then
        s.move i c (.returned .noMem)
      else s
  | _ => s

def take (s : UartComm) (i : Nat) (c : UartCall) : UartComm :=
  match c.point, s.atResponseSem with
  | .waiting _, some _ => { s with atResponseSem := none }.move i c .taken
  | _, _ => s

def waitTimeout (pdMsToTicks : Nat → Nat) (s : UartComm) (i : Nat) (c : UartCall) : UartComm :=
  match c.point with
  | .waiting since =>
      if s.atResponseSem = none ∧
          pdMsToTicks ((c.timeoutMs + 1000) % 2 ^ 32) ≤ s.elapsed since then
        s.move i c (.returned .timeout)
      else s
  | _ => s

def check (s : UartComm) (i : Nat) (c : UartCall) : UartComm :=
  match c.point with
  | .taken =>
      s.move i c (if s.globalAtResponse.isValid then .leaving else .returned .invalidResponse)
  | _ => s

def ret (s : UartComm) (i : Nat) (c : UartCall) : UartComm :=
  match c.point with
  | .leaving => s.move i c (.returned .ok)
  | _ => s

/-- The worker finds a command in the queue. -/
def receive (s : UartComm) : UartComm :=
  match s.worker, s.globalAtCommandQueue with
  | .idle, cmd :: rest => { s with worker := .received cmd, globalAtCommandQueue := rest }
  | _, _ => s

def write (whole : Bool) (s : UartComm) : UartComm :=
  match s.worker with
  | .received cmd =>
      if whole && cmd.needResponse then
        { s with globalAtResponse := ⟨[], 0, false⟩, worker := .waiting cmd s.now [] }
      else { s with worker := .idle }
  | _ => s

def loop (pdMsToTicks : Nat → Nat) (s : UartComm) : UartComm :=
  match s.worker with
  | .waiting cmd start buffer =>
      if s.elapsed start < pdMsToTicks cmd.timeoutMs then
        { s with worker := .reading cmd start buffer }
      else { s with worker := .storing cmd false buffer }
  | _ => s

def read (data : Text) (s : UartComm) : UartComm :=
  match s.worker with
  | .reading cmd start buffer =>
      if HasCode data then { s with worker := .storing cmd true (appendResponse buffer data) }
      else { s with worker := .waiting cmd start (appendResponse buffer data) }
  | _ => s

def store (s : UartComm) : UartComm :=
  match s.worker with
  | .storing cmd responseReceived buffer =>
      let response := buffer.take 1023
      { s with
        globalAtResponse :=
          if responseReceived then ⟨response, response.length, true⟩
          else { s.globalAtResponse with isValid := false }
        worker := .giving cmd }
  | _ => s

/-- A give is lost when the semaphore is there already. -/
def give (s : UartComm) : UartComm :=
  match s.worker with
  | .giving cmd =>
      { s with atResponseSem := s.atResponseSem.or (some cmd.call), worker := .idle }
  | _ => s

/-- Call `i` does its step, if there is such a call. -/
def atCall (s : UartComm) (i : Nat) (f : UartComm → Nat → UartCall → UartComm) : UartComm :=
  match s.calls[i]? with
  | some c => f s i c
  | none => s

def step (pdMsToTicks : Nat → Nat) (s : UartComm) : UartOp → UartComm
  | .tick elapsed => { s with now := s.now + elapsed }
  | .call command timeoutMs => s.begin command timeoutMs
  | .send i => s.atCall i send
  | .sendTimeout i => s.atCall i (sendTimeout pdMsToTicks)
  | .take i => s.atCall i take
  | .waitTimeout i => s.atCall i (waitTimeout pdMsToTicks)
  | .check i => s.atCall i check
  | .ret i => s.atCall i ret
  | .receive => s.receive
  | .write whole => s.write whole
  | .loop => s.loop pdMsToTicks
  | .read data => s.read data
  | .store => s.store
  | .give => s.give

end UartComm

end Leyu
