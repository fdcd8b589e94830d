import TitusIsolate.Isolate.EventLog
import TitusIsolate.Lib.SharedCount
import TitusIsolate.Lib.Run

/-!
# The Keystone event log manager

Threads that report put messages in a queue, one worker takes them out and posts them. A
message the service does not take goes back to the end of the queue.

The queue is safe to share. The counts are plain integers raised by `+=`: those of the
successes and the retries belong to the worker alone, that of the failures is raised by the
worker and by every thread that reports, so there a raise is two steps.
-/

namespace TitusIsolate

variable {Payload : Type}

/-- The event of a message: `{"uuid": .., "payload": payload}`. The time is what
`payload['ts']` is set to. -/
structure KeystoneEvent (Payload : Type) where
  uuid : String
  ts : String
  payload : Payload

/-- The message that is posted. -/
structure KeystoneMsg (Payload : Type) where
  appName : String
  hostname : String
  ack : Bool
  event : List (KeystoneEvent Payload)

/-- `get_event_msg(event)`, with what `socket.gethostname()` does. -/
def getEventMsg (event : KeystoneEvent Payload) (hostName : Except PyError String) :
    Except PyError (KeystoneMsg Payload) :=
  match hostName with
  | .error e => .error e
  | .ok hostName =>
      .ok { appName := "titus-isolate", hostname := hostName, ack := true, event := [event] }

/-- What `requests.post` returns. -/
structure KeystoneResponse where
  statusCode : Nat
  /-- `response.content` -/
  content : Except PyError String

/-- The threads that raise the count of the failures. -/
inductive KeystoneThread where
  | worker
  | reporter (i : Nat)
  deriving DecidableEq

/-- Where the worker is in its loop. -/
inductive KeystonePhase (Payload : Type) where
  /-- At `q.get()`. -/
  | idle
  /-- Has a message, and nothing yet done with it. -/
  | holding (msg : KeystoneMsg Payload)
  /-- In the `except` clause: has loaded the count of the failures. -/
  | storing

/-- `KeystoneEventLogManager`, by its attributes, its queue, and where its worker is. -/
structure KeystoneEventLogManager (Payload : Type) where
  address : Option String
  enabled : Bool
  q : List (KeystoneMsg Payload)
  succeededMsgCount : Nat
  retryMsgCount : Nat
  failedMsgCount : SharedCount KeystoneThread
  phase : KeystonePhase Payload
  /-- History: what was reported and went into the queue, how many reports did not get so
  far, all that was put, all that was posted, and what became of it. -/
  accepted : List (KeystoneMsg Payload)
  refused : Nat
  put : List (KeystoneMsg Payload)
  posted : List (KeystoneMsg Payload)
  acknowledged : List (KeystoneMsg Payload)
  lost : List (KeystoneMsg Payload)
  dropped : List (KeystoneMsg Payload)

/-- What can happen next. -/
inductive KeystoneStep (Payload : Type) where
  /-- A thread calls `report_event`: the payload, the clock, the uuid drawn, the host's name. -/
  | report (thread : Nat) (payload : Payload) (now : String) (uuid : String)
      (hostName : Except PyError String)
  /-- A thread whose report failed stores the count. -/
  | storeFailed (thread : Nat)
  /-- The worker goes on. Should it post, this is what `send_event_msg` comes back with. -/
  | work (answer : Except PyError KeystoneResponse)

namespace KeystoneEventLogManager

/-- `KeystoneEventLogManager()`, given what `__get_address()` answers. -/
def init (address : Option String) : KeystoneEventLogManager Payload where
  address := address
  enabled := address.isSome
  q := []
  succeededMsgCount := 0
  retryMsgCount := 0
  failedMsgCount := SharedCount.zero
  phase := .idle
  accepted := []
  refused := 0
  put := []
  posted := []
  acknowledged := []
  lost := []
  dropped := []

/-- `report_metrics(tags)`: what each gauge is set to. -/
def reportMetrics (m : KeystoneEventLogManager Payload) : List (String × Nat) :=
  [("titus-isolate.eventLogSuccessCount", m.succeededMsgCount),
   ("titus-isolate.eventLogRetryCount", m.retryMsgCount),
   ("titus-isolate.eventLogFailureCount", m.failedMsgCount.value)]

/-- `report_event(payload)`. Where it raises, the count of the failures is loaded, and the
thread still has to store it. -/
def reportEvent (m : KeystoneEventLogManager Payload) (thread : Nat) (payload : Payload)
    (now uuid : String) (hostName : Except PyError String) : KeystoneEventLogManager Payload :=
  match getEventMsg { uuid := uuid, ts := now, payload := payload } hostName with
  | .error _ =>
      { m with
        failedMsgCount := m.failedMsgCount.load (.reporter thread)
        refused := m.refused + 1 }
  | .ok msg =>
      { m with
        q := m.q ++ [msg]
        accepted := m.accepted ++ [msg]
        put := m.put ++ [msg] }

/-- The `except` clause of the worker, up to where it has loaded the count. -/
def fail (m : KeystoneEventLogManager Payload) (msg : KeystoneMsg Payload) :
    KeystoneEventLogManager Payload :=
  { m with
    failedMsgCount := m.failedMsgCount.load .worker
    phase := .storing
    posted := m.posted ++ [msg]
    lost := m.lost ++ [msg] }

/-- What the worker does with a message it has taken. -/
def handle (m : KeystoneEventLogManager Payload) (msg : KeystoneMsg Payload)
    (answer : Except PyError KeystoneResponse) : KeystoneEventLogManager Payload :=
  if !m.enabled then
    { m with phase := .idle, dropped := m.dropped ++ [msg] }
  else
    match answer with
    | .error _ => m.fail msg
    | .ok response =>
        if response.statusCode ≠ 200 then
          -- The content is read for the log, before the message is put back.
          match response.content with
          | .error _ => m.fail msg
          | .ok _ =>
              { m with
                retryMsgCount := m.retryMsgCount + 1
                q := m.q ++ [msg]
                phase := .idle
                put := m.put ++ [msg]
                posted := m.posted ++ [msg] }
        else
          { m with
            succeededMsgCount := m.succeededMsgCount + 1
            phase := .idle
            posted := m.posted ++ [msg]
            acknowledged := m.acknowledged ++ [msg] }

/-- One step of `__process_events`. -/
def processEvents (m : KeystoneEventLogManager Payload)
    (answer : Except PyError KeystoneResponse) : KeystoneEventLogManager Payload :=
  match m.phase with
  | .idle =>
      match m.q with
      | [] => m
      | msg :: rest => { m with q := rest, phase := .holding msg }
  | .holding msg => m.handle msg answer
  | .storing => { m with failedMsgCount := m.failedMsgCount.store .worker, phase := .idle }

/-- A thread that has a count still to store makes no other call. -/
def isStoring (m : KeystoneEventLogManager Payload) (thread : Nat) : Bool :=
  m.failedMsgCount.inFlight.any (fun p => p.1 = .reporter thread)

/-- A report, the store it owes, or a step of the worker. -/
def step (m : KeystoneEventLogManager Payload) :
    KeystoneStep Payload → KeystoneEventLogManager Payload
  | .report thread payload now uuid hostName =>
      if m.isStoring thread then m else m.reportEvent thread payload now uuid hostName
  | .storeFailed thread =>
      { m with failedMsgCount := m.failedMsgCount.store (.reporter thread) }
  | .work answer => m.processEvents answer

end KeystoneEventLogManager

end TitusIsolate
