import Pma.Abort
import Pma.Transition

namespace Pma

open Transition

/-!
# The life cycle of a module

`server/server.c` is written as handlers of status changes, and the handlers
change the status again: `module_register` waits for the `ACK`, whose handler
runs `module_daemon`, which registers anew when the connection is lost, all
inside the call that received the `ACK`.  The calls that have not returned are
kept as a stack of frames, each at the point where it goes on.
-/

/-- `M_STATUS_INITING` and the other statuses. -/
inductive ModuleStatus where
  | initing
  | inited
  | logging
  | logged
  | waiting
  | ready
  | working
  | offline
  deriving Repr, DecidableEq

/-- The modules that register with BM. -/
inductive ModuleId where
  | ICM
  | DBM
  | PEM
  deriving Repr, DecidableEq

/-- The argument of `set_conf_type`: `ICM_CONF`, `DBM_CONF` or `PEM_CONF`. -/
def ModuleId.confType : ModuleId → Nat
  | .ICM => 55
  | .DBM => 56
  | .PEM => 57

/-- `ACK`. -/
def ackType : Nat := 4

/-- `PMA_VERSION`. -/
def pmaVersion : Nat := 3

/-- A call that has not returned, at the point where it goes on. -/
inductive Frame where
  | moduleStart
  /-- `module_set_status`. -/
  | setStatus (status : ModuleStatus)
  | moduleRegister
  /-- `module_register` at `srv_connect`. -/
  | connect
  /-- `module_register` behind the connection, at `send_packet`. -/
  | sendRegister
  | moduleDaemon
  /-- `module_daemon` at the head of its loop. -/
  | daemonLoop
  | moduleGetData
  /-- `module_get_data` with a packet of its own version. -/
  | dispatch (pktType : Nat)
  /-- `module_get_data` behind `run_ctl`. -/
  | handled (pktType : Nat)
  | ackHandle
  deriving Repr, DecidableEq

/-- What `recv_packet` returns. -/
inductive RecvResult where
  | failed
  | closed
  | packet (pktType pktVersion : Nat)
  deriving Repr, DecidableEq

/-- What happens next, with the answers from outside. -/
inductive Input where
  /-- `main` calls `module_start`. -/
  | start
  /-- The innermost call goes on by itself. -/
  | proceed
  | connected (success : Bool)
  | selected (readable : Bool)
  | received (result : RecvResult)
  /-- Whether the `ACK` is for this module and positive. -/
  | acked (accepted : Bool)
  /-- A `send_packet` anywhere takes the connection for lost. -/
  | sendFailed
  deriving Repr, DecidableEq

/--
The variables of a module process.  `confReceived` is not one of them: it says
whether a configuration packet came since the last successful `srv_connect`.
-/
structure ModuleVars where
  moduleStatus : ModuleStatus
  conStatus : Bool
  confReceived : Bool
  deriving Repr, DecidableEq

/-- A module process: its variables and its stack, the innermost call first. -/
structure ModuleProcess where
  vars : ModuleVars
  stack : List Frame
  deriving Repr, DecidableEq

/-- The handlers `module_init` adds for a status. -/
def statusTransfer : ModuleStatus → List Frame
  | .inited => [.moduleRegister]
  | .logged => [.moduleDaemon]
  | .offline => [.moduleStart]
  | _ => []

namespace ModuleId

/-- `ctl_flag`: whether `module_get_data` passes a packet to `run_ctl`. -/
def ctlFlag (self : ModuleId) (status : ModuleStatus) (pktType : Nat) : Bool :=
  status = .working ||
    (status = .logging && pktType = ackType) ||
    pktType = self.confType

/--
Let the innermost call go on: the variables, and the calls that replace it.
Of the handlers only `ack_handle` changes the status.  The error says that the
input is not the one the call waits for.
-/
def resume (self : ModuleId) (vars : ModuleVars) :
    Frame → Input → Except Unit (ModuleVars × List Frame)
  | .moduleStart, .proceed =>
      .ok (vars, [.setStatus .inited])
  | .setStatus status, .proceed =>
      .ok ({ vars with moduleStatus := status }, statusTransfer status)
  | .moduleRegister, .proceed =>
      .ok ({ vars with moduleStatus := .logging }, [.connect])
  | .connect, .connected true =>
      .ok ({ vars with conStatus := true, confReceived := false }, [.sendRegister])
  | .connect, .connected false =>
      -- There is no return behind the nested registration.
      .ok (vars, [.setStatus .inited, .sendRegister])
  | .sendRegister, .proceed =>
      .ok (vars, [.moduleGetData])
  | .moduleDaemon, .proceed =>
      .ok ({ vars with moduleStatus := .waiting }, [.daemonLoop])
  | .daemonLoop, .proceed =>
      if vars.conStatus then
        .error ()
      else
        .ok (vars, [.setStatus .offline])
  | .daemonLoop, .selected readable =>
      if vars.conStatus then
        .ok (vars, if readable then [.moduleGetData, .daemonLoop] else [.daemonLoop])
      else
        .error ()
  | .moduleGetData, .received .failed =>
      .ok (vars, [])
  | .moduleGetData, .received .closed =>
      .ok ({ vars with conStatus := false }, [])
  | .moduleGetData, .received (.packet pktType pktVersion) =>
      .ok ({ vars with
          confReceived := vars.confReceived || pktType = self.confType },
        if pktVersion = pmaVersion then [.dispatch pktType] else [])
  | .dispatch pktType, .proceed =>
      .ok (vars,
        if self.ctlFlag vars.moduleStatus pktType && pktType = ackType then
          [.ackHandle, .handled pktType]
        else
          [.handled pktType])
  | .handled pktType, .proceed =>
      .ok (if pktType = self.confType then
          { vars with moduleStatus := .working }
        else
          vars, [])
  | .ackHandle, .acked accepted =>
      .ok (vars, if accepted then [.setStatus .logged] else [])
  | _, _ => .error ()

/-- Let the innermost call of a process go on, or start one. -/
def advance (self : ModuleId) (process : ModuleProcess) (input : Input) :
    Except Unit ModuleProcess :=
  match process.stack with
  | [] =>
      if input = .start then
        .ok { process with stack := [.moduleStart] }
      else
        .error ()
  | frame :: outer => do
      let (vars, frames) ← self.resume process.vars frame input
      return { vars := vars, stack := frames ++ outer }

/-- One step of a module process. -/
def step (self : ModuleId) (process : ModuleProcess) :
    Input → Except Unit ModuleProcess
  | .sendFailed =>
      .ok { process with
        vars := { process.vars with
          moduleStatus := .offline
          conStatus := false } }
  | input => self.advance process input

/-- The type of the packet that a step passes to `run_ctl`. -/
def runsCtl (self : ModuleId) (process : ModuleProcess) : Input → Option Nat
  | .proceed =>
      match process.stack with
      | .dispatch pktType :: _ =>
          if self.ctlFlag process.vars.moduleStatus pktType then
            some pktType
          else
            none
      | _ => none
  | _ => none

/-- A module before `module_start`. -/
def init : ModuleProcess where
  vars := ⟨.initing, false, false⟩
  stack := []

/-! ## What the frames on the stack rely on -/

/-- A call that can wait for another one to return. -/
def Waits (self : ModuleId) : Frame → Prop
  | .sendRegister => True
  | .daemonLoop => True
  | .handled pktType => pktType ≠ self.confType
  | _ => False

/-- What the innermost call relies on. -/
def Relies (self : ModuleId) (vars : ModuleVars) : Frame → Prop
  | .setStatus status => status ≠ .working
  | .connect => vars.moduleStatus ≠ .working
  | .dispatch pktType => pktType = self.confType → vars.confReceived = true
  | .handled pktType => pktType = self.confType → vars.confReceived = true
  | _ => True

/-- The innermost call has what it relies on, and the others can wait. -/
def Nested (self : ModuleId) (vars : ModuleVars) : List Frame → Prop
  | [] => True
  | frame :: outer =>
      self.Relies vars frame ∧ ∀ waiting ∈ outer, self.Waits waiting

/-- The invariant of a module process. -/
structure Configured (self : ModuleId) (process : ModuleProcess) : Prop where
  working :
    process.vars.moduleStatus = .working → process.vars.confReceived = true
  nested : self.Nested process.vars process.stack

/-- A call that can wait relies on nothing. -/
theorem Waits.relies
    {self : ModuleId}
    {frame : Frame}
    (waits : self.Waits frame)
    (vars : ModuleVars) :
    self.Relies vars frame := by
  cases frame with
  | handled pktType =>
      intro isConf
      exact absurd isConf waits
  | sendRegister =>
      trivial
  | daemonLoop =>
      trivial
  | moduleStart =>
      trivial
  | setStatus status =>
      exact absurd waits id
  | moduleRegister =>
      trivial
  | connect =>
      exact absurd waits id
  | moduleDaemon =>
      trivial
  | moduleGetData =>
      trivial
  | dispatch pktType =>
      exact absurd waits id
  | ackHandle =>
      trivial

/-- New calls on top of calls that wait. -/
theorem nested_append
    {self : ModuleId}
    {vars : ModuleVars}
    {frames outer : List Frame}
    (new : self.Nested vars frames)
    (waits : ∀ waiting ∈ outer, self.Waits waiting) :
    self.Nested vars (frames ++ outer) := by
  cases frames with
  | nil =>
      cases outer with
      | nil =>
          trivial
      | cons frame outer =>
          exact ⟨(waits frame List.mem_cons_self).relies vars,
            fun waiting member => waits waiting (List.mem_cons_of_mem _ member)⟩
  | cons frame frames =>
      refine ⟨new.1, ?_⟩
      intro waiting member
      rcases List.mem_append.mp member with isNew | isOuter
      · exact new.2 waiting isNew
      · exact waits waiting isOuter

theorem nested_one
    {self : ModuleId}
    {vars : ModuleVars}
    {frame : Frame}
    (relies : self.Relies vars frame) :
    self.Nested vars [frame] :=
  ⟨relies, fun _ member => absurd member List.not_mem_nil⟩

theorem nested_two
    {self : ModuleId}
    {vars : ModuleVars}
    {frame waiting : Frame}
    (relies : self.Relies vars frame)
    (waits : self.Waits waiting) :
    self.Nested vars [frame, waiting] := by
  refine ⟨relies, fun other member => ?_⟩
  rw [List.mem_singleton] at member
  exact member ▸ waits

/-- `ACK` is no configuration type. -/
theorem ackType_ne_confType
    (self : ModuleId) :
    ackType ≠ self.confType := by
  cases self <;> decide

/-- The step lemma for the innermost call. -/
theorem resume_nested
    {self : ModuleId}
    {vars next : ModuleVars}
    {frame : Frame}
    {input : Input}
    {frames : List Frame}
    (working : vars.moduleStatus = .working → vars.confReceived = true)
    (relies : self.Relies vars frame)
    (resumed : self.resume vars frame input = .ok (next, frames)) :
    (next.moduleStatus = .working → next.confReceived = true) ∧
      self.Nested next frames := by
  cases frame with
  | moduleStart =>
      cases input <;> cases resumed
      exact ⟨working, nested_one nofun⟩
  | setStatus status =>
      cases input <;> cases resumed
      refine ⟨fun isWorking => absurd isWorking relies, ?_⟩
      cases status with
      | inited =>
          exact nested_one trivial
      | logged =>
          exact nested_one trivial
      | offline =>
          exact nested_one trivial
      | initing =>
          trivial
      | logging =>
          trivial
      | waiting =>
          trivial
      | ready =>
          trivial
      | working =>
          trivial
  | moduleRegister =>
      cases input <;> cases resumed
      exact ⟨nofun, nested_one nofun⟩
  | connect =>
      cases input with
      | connected success =>
          cases success <;> cases resumed
          · exact ⟨working, nested_two nofun trivial⟩
          · -- The flag is reset, and the status is still that of the registration.
            exact ⟨fun isWorking => absurd isWorking relies, nested_one trivial⟩
      | _ =>
          cases resumed
  | sendRegister =>
      cases input <;> cases resumed
      exact ⟨working, nested_one trivial⟩
  | moduleDaemon =>
      cases input <;> cases resumed
      exact ⟨nofun, nested_one trivial⟩
  | daemonLoop =>
      cases input with
      | proceed =>
          simp only [resume] at resumed
          split at resumed <;> cases resumed
          exact ⟨working, nested_one nofun⟩
      | selected readable =>
          simp only [resume] at resumed
          split at resumed <;> cases resumed
          refine ⟨working, ?_⟩
          cases readable with
          | false =>
              exact nested_one trivial
          | true =>
              exact nested_two trivial trivial
      | _ =>
          cases resumed
  | moduleGetData =>
      cases input with
      | received result =>
          cases result with
          | failed =>
              cases resumed
              exact ⟨working, trivial⟩
          | closed =>
              cases resumed
              exact ⟨working, trivial⟩
          | packet pktType pktVersion =>
              cases resumed
              refine ⟨fun isWorking => ?_, ?_⟩
              · rw [working isWorking]
                rfl
              · split
                · refine nested_one fun isConf => ?_
                  simp [isConf]
                · trivial
      | _ =>
          cases resumed
  | dispatch pktType =>
      cases input <;> cases resumed
      refine ⟨working, ?_⟩
      split
      · next isAck =>
          rw [Bool.and_eq_true, decide_eq_true_iff] at isAck
          have other : self.Waits (.handled pktType) := by
            change pktType ≠ self.confType
            rw [isAck.2]
            exact self.ackType_ne_confType
          exact nested_two trivial other
      · exact nested_one relies
  | handled pktType =>
      cases input <;> cases resumed
      refine ⟨?_, trivial⟩
      split
      · next isConf =>
          exact fun _ => relies isConf
      · exact working
  | ackHandle =>
      cases input with
      | acked accepted =>
          cases accepted <;> cases resumed
          · exact ⟨working, trivial⟩
          · exact ⟨working, nested_one nofun⟩
      | _ =>
          cases resumed

/-- The step lemma for the stack. -/
theorem Configured.advance
    {self : ModuleId}
    {process next : ModuleProcess}
    (configured : self.Configured process)
    {input : Input}
    (advanced : self.advance process input = .ok next) :
    self.Configured next := by
  obtain ⟨working, nested⟩ := configured
  obtain ⟨vars, stack⟩ := process
  cases stack with
  | nil =>
      simp only [ModuleId.advance] at advanced
      split at advanced <;> cases advanced
      exact ⟨working, trivial, by simp⟩
  | cons frame outer =>
      obtain ⟨⟨after, frames⟩, resumed, pushed⟩ := bind_eq_ok.mp advanced
      cases pushed
      obtain ⟨stillWorking, new⟩ := resume_nested working nested.1 resumed
      exact ⟨stillWorking, nested_append new nested.2⟩

/-- A lost connection takes the status back, and no call relies on that. -/
theorem Configured.sendFailed
    {self : ModuleId}
    {process next : ModuleProcess}
    (configured : self.Configured process)
    (stepped : self.step process .sendFailed = .ok next) :
    self.Configured next := by
  obtain ⟨_, nested⟩ := configured
  obtain ⟨vars, stack⟩ := process
  cases stepped
  refine ⟨nofun, ?_⟩
  cases stack with
  | nil =>
      trivial
  | cons frame outer =>
      refine ⟨?_, nested.2⟩
      cases frame with
      | connect =>
          exact nofun
      | _ =>
          exact nested.1

/-- The step lemma for the process. -/
theorem Configured.step
    {self : ModuleId}
    {process next : ModuleProcess}
    (configured : self.Configured process)
    {input : Input}
    (stepped : self.step process input = .ok next) :
    self.Configured next := by
  cases input with
  | sendFailed =>
      exact configured.sendFailed stepped
  | _ =>
      exact configured.advance stepped

/-- The runs of a module process. -/
abbrev ModuleRun (self : ModuleId) :
    ModuleProcess → List Input → ModuleProcess → Prop :=
  Run (ofPartial self.step)

/--
A packet that is neither an `ACK` nor a configuration is passed to `run_ctl`
only when a configuration came since the last successful `srv_connect`.
-/
theorem runsCtl_configured
    {self : ModuleId}
    {inputs : List Input}
    {process : ModuleProcess}
    (run : self.ModuleRun init inputs process)
    {input : Input}
    {pktType : Nat}
    (runs : self.runsCtl process input = some pktType)
    (notAck : pktType ≠ ackType)
    (notConf : pktType ≠ self.confType) :
    process.vars.confReceived = true := by
  have configured : self.Configured process := by
    apply run.invariant (Configured self)
    · intro before input next holds stepped
      exact holds.step stepped
    · exact ⟨nofun, trivial⟩
  obtain ⟨working, _⟩ := configured
  apply working
  obtain ⟨vars, stack⟩ := process
  cases input with
  | proceed =>
      cases stack with
      | nil =>
          cases runs
      | cons frame outer =>
          cases frame with
          | dispatch found =>
              simp only [runsCtl] at runs
              split at runs
              · next flag =>
                  cases runs
                  simpa [ctlFlag, notAck, notConf] using flag
              · cases runs
          | _ =>
              cases runs
  | _ =>
      cases runs

/-- A failed connection, a registration, a configuration, and a list of routers. -/
def registered : List Input :=
  [.start, .proceed, .proceed, .proceed, .connected false, .proceed, .proceed,
    .connected true, .proceed, .received (.packet ackType pmaVersion), .proceed,
    .acked true, .proceed, .proceed, .selected true,
    .received (.packet 55 pmaVersion), .proceed, .proceed, .selected true,
    .received (.packet 54 pmaVersion)]

/-- The list of routers is handled, in the daemon that the `ACK` has started. -/
theorem runsCtl_configured_registered :
    ∃ process,
      ModuleId.ICM.ModuleRun init registered process ∧
        process.stack =
          [.dispatch 54, .daemonLoop, .handled ackType, .sendRegister] ∧
        process.vars.confReceived = true := by
  have run :
      ∃ process,
        ModuleId.ICM.ModuleRun init registered process ∧
          process.stack =
            [.dispatch 54, .daemonLoop, .handled ackType, .sendRegister] ∧
          ModuleId.ICM.runsCtl process .proceed = some 54 :=
    ⟨_, run_of_foldlM rfl, rfl, rfl⟩
  obtain ⟨process, path, stack, runs⟩ := run
  exact ⟨process, path, stack,
    runsCtl_configured path runs (by decide) (by decide)⟩

end ModuleId

end Pma
