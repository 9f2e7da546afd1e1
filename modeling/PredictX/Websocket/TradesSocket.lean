import PredictX.Data.Run
import PredictX.Websocket.SharedSocket

namespace PredictX.TradesSocket

open PredictX.SharedSocket (WSStatus ReadyState)

/-! The socket of the platform-wide trade feed, as one `useGlobalTradesSocket` holds it.

The hook is followed event by event, every callback run to its end.  Sockets and timers are numbered
as they are made and keep their number when the hook drops them: a socket that has been dropped goes
on to close, and a timer that no field refers to any more can still fire.
-/

/-- `MAX_BACKOFF_MS`. -/
def maxBackoffMs : ℚ := 30000

/-- `JITTER_FACTOR`. -/
def jitterFactor : ℚ := 1 / 2

/-- The delay of an attempt before it is jittered. -/
def backoff : ℕ → ℚ
  | 0 => 200
  | 1 => 350
  | 2 => 600
  | 3 => 1000
  | 4 => 2000
  | 5 => 4000
  | 6 => 8000
  | n + 7 => min (8000 * 2 ^ n) maxBackoffMs

/-- `reconnectDelayMs`, with the number that `Math.random` draws. -/
def reconnectDelayMs (attempt : ℕ) (random : ℚ) : ℤ :=
  ⌊backoff attempt / 2 + random * (backoff attempt / 2) * jitterFactor + 1 / 2⌋

inductive Frame where
  /-- `__ws_resync__`, which the hook itself hands out. -/
  | resync
  | server (data : ℕ)
deriving DecidableEq, Repr

/-- What the server sends. -/
inductive Incoming where
  | malformed
  | ping (ts : ℕ)
  | frame (data : ℕ)
deriving DecidableEq, Repr

structure WebSocket where
  readyState : ReadyState
  /-- `onclose` has not been taken off. -/
  attached : Bool
  /-- The pongs that it has sent. -/
  pongs : List ℕ
deriving DecidableEq, Repr

namespace WebSocket

/-- The number stands for no socket yet. -/
def unmade : WebSocket := ⟨.closed, false, []⟩

/-- `readyState <= WebSocket.OPEN`. -/
def Live (socket : WebSocket) : Prop :=
  socket.readyState = .connecting ∨ socket.readyState = .opened

instance (socket : WebSocket) : Decidable socket.Live := inferInstanceAs (Decidable (_ ∨ _))

def becomes (socket : WebSocket) (readyState : ReadyState) : WebSocket :=
  { socket with readyState }

def close (socket : WebSocket) : WebSocket :=
  if socket.readyState = .closed then socket else socket.becomes .closing

def detach (socket : WebSocket) : WebSocket := { socket with attached := false }

/-- A socket that is not open drops what it is given, or throws, which is caught. -/
def pong (socket : WebSocket) (ts : ℕ) : WebSocket :=
  if socket.readyState = .opened then { socket with pongs := socket.pongs ++ [ts] } else socket

end WebSocket

/-- What the consumer has been handed, and when a socket has connected. -/
inductive Entry where
  | onMessage (frame : Frame)
  | connected (ws : ℕ)
deriving DecidableEq, Repr

structure Hook where
  mounted : Bool
  /-- A run of the effect for an enabled feed has not been cleaned up; its listeners are bound. -/
  bound : Bool
  ws : Option ℕ
  sockets : ℕ → WebSocket
  socketCount : ℕ
  retries : ℕ
  timer : Option ℕ
  /-- The delays of the timers that have neither fired nor been cleared. -/
  timers : ℕ → Option ℤ
  timerCount : ℕ
  everConnected : Bool
  status : WSStatus
  log : List Entry

namespace Hook

def initial : Hook where
  mounted := true
  bound := false
  ws := none
  sockets := fun _ => .unmade
  socketCount := 0
  retries := 0
  timer := none
  timers := fun _ => none
  timerCount := 0
  everConnected := false
  status := .disconnected
  log := []

variable (hook : Hook)

def atSocket (ws : ℕ) (update : WebSocket → WebSocket) : Hook :=
  { hook with sockets := Function.update hook.sockets ws (update (hook.sockets ws)) }

def clearTimeout (timer : ℕ) : Hook :=
  { hook with timers := Function.update hook.timers timer none }

/-- `if (timerRef.current) clearTimeout(timerRef.current)`: the handle stays where it is. -/
def stopTimer : Hook :=
  match hook.timer with
  | none => hook
  | some timer => hook.clearTimeout timer

def emit (frame : Frame) : Hook := { hook with log := hook.log ++ [.onMessage frame] }

/-- `new WebSocket`; the new socket is the one numbered `socketCount` before. -/
def newSocket : Hook :=
  { hook with
    ws := some hook.socketCount
    sockets := Function.update hook.sockets hook.socketCount ⟨.connecting, true, []⟩
    socketCount := hook.socketCount + 1
    status := .connecting }

def connect : Hook :=
  if hook.mounted = false then hook
  else if ∃ ws ∈ hook.ws, (hook.sockets ws).Live then hook
  else hook.newSocket

/-- `onclose = null`, `close()`. -/
def drop (held : Option ℕ) : Hook :=
  match held with
  | none => hook
  | some ws => hook.atSocket ws fun socket => socket.detach.close

/-! # What the handlers of a socket do -/

def onopen (ws : ℕ) : Hook :=
  if hook.mounted = false then hook.atSocket ws (·.close)
  else
    let connected : Hook := { hook with
      retries := 0
      status := .connected
      log := hook.log ++ [.connected ws] }
    let told := if hook.everConnected then connected.emit .resync else connected
    { told with everConnected := true }

def onmessage (ws : ℕ) : Incoming → Hook
  | .malformed => hook
  | .ping ts => hook.atSocket ws (·.pong ts)
  | .frame data => hook.emit (.server data)

def onclose (ws : ℕ) (random : ℚ) : Hook :=
  if hook.mounted = false then hook
  else
    { hook with
      ws := if hook.ws = some ws then none else hook.ws
      status := .disconnected
      retries := hook.retries + 1
      timer := some hook.timerCount
      timers := Function.update hook.timers hook.timerCount
        (some (reconnectDelayMs hook.retries random))
      timerCount := hook.timerCount + 1 }

def onerror (ws : ℕ) : Hook :=
  if hook.mounted = false then hook else hook.atSocket ws (·.close)

/-- What a retry timer runs. -/
def onTimer : Hook := { hook with timer := none }.connect

/-! # The effect -/

/-- `recover`, which both listeners call. -/
def recover (force : Bool) : Hook :=
  if hook.mounted = false then hook
  else if force = false ∧ hook.ws = none ∧ hook.timer = none then hook
  else
    let cleared := { hook.stopTimer with timer := none }
    let dropped := cleared.drop (hook.ws.filter fun ws => (hook.sockets ws).Live)
    { dropped with retries := 0, ws := none }.connect

/-- What the effect returns; a run for a feed that is not enabled returns nothing. -/
def cleanup : Hook :=
  if hook.bound then
    let stopped := { hook with mounted := false }.stopTimer
    { stopped with bound := false, ws := none }.drop hook.ws
  else hook

/-- The body of the effect. -/
def body (enabled : Bool) : Hook :=
  let mounted := { hook with mounted := true }
  if enabled then { { mounted with retries := 0 }.connect with bound := true }
  else { mounted.stopTimer.drop hook.ws with retries := 0, ws := none }

end Hook

/-! # Events -/

inductive Event where
  /-- The effect runs, after the component has mounted or `enabled` has changed. -/
  | effect (enabled : Bool)
  | unmount
  | opens (ws : ℕ)
  | message (ws : ℕ) (incoming : Incoming)
  | closing (ws : ℕ)
  | errs (ws : ℕ)
  | closes (ws : ℕ) (random : ℚ)
  | timer (timer : ℕ)
  | online
  | visible
deriving DecidableEq, Repr

/-- One event, with what it calls run to its end. -/
inductive Happens : Hook → Event → Hook → Prop
  | effect {hook : Hook} (enabled : Bool) :
      Happens hook (.effect enabled) (hook.cleanup.body enabled)
  | unmount {hook : Hook} : Happens hook .unmount hook.cleanup
  | opens {hook : Hook} {ws : ℕ} (connecting : (hook.sockets ws).readyState = .connecting) :
      Happens hook (.opens ws) ((hook.atSocket ws (·.becomes .opened)).onopen ws)
  | message {hook : Hook} {ws : ℕ} (incoming : Incoming)
      (opened : (hook.sockets ws).readyState = .opened) :
      Happens hook (.message ws incoming) (hook.onmessage ws incoming)
  /-- The server, or the network, has begun to close. -/
  | closing {hook : Hook} {ws : ℕ} (alive : (hook.sockets ws).readyState ≠ .closed) :
      Happens hook (.closing ws) (hook.atSocket ws (·.becomes .closing))
  | errs {hook : Hook} {ws : ℕ} (alive : (hook.sockets ws).readyState ≠ .closed) :
      Happens hook (.errs ws) (hook.onerror ws)
  | closes {hook : Hook} {ws : ℕ} {random : ℚ} (alive : (hook.sockets ws).readyState ≠ .closed)
      (attached : (hook.sockets ws).attached = true) (drawn : 0 ≤ random ∧ random < 1) :
      Happens hook (.closes ws random) ((hook.atSocket ws (·.becomes .closed)).onclose ws random)
  | closesDetached {hook : Hook} {ws : ℕ} {random : ℚ}
      (alive : (hook.sockets ws).readyState ≠ .closed)
      (detached : (hook.sockets ws).attached = false) :
      Happens hook (.closes ws random) (hook.atSocket ws (·.becomes .closed))
  | timer {hook : Hook} {timer : ℕ} {delay : ℤ} (due : hook.timers timer = some delay) :
      Happens hook (.timer timer) (hook.clearTimeout timer).onTimer
  | online {hook : Hook} (bound : hook.bound = true) :
      Happens hook .online (hook.recover true)
  | visible {hook : Hook} (bound : hook.bound = true) :
      Happens hook .visible (hook.recover false)

end PredictX.TradesSocket
