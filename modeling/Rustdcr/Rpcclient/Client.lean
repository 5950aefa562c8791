import Rustdcr.Dcrjson.Value
import Rustdcr.Rpcclient.Connection

/-!
# The client façade (`rpcclient::client`)

The `Client` record and the calls that change it, as a state machine over
the client and the channels around it (`World`). Channels are numbered as
they are created; the world records which receivers are alive, the
commands and disconnect tokens sent, every `ws_handler` call, and, as
ghosts, every id `next_id` returned and whether the last write of the shared
flag was a transport task's. What `ws_split_stream` answers is a parameter
of each dial, and `serde_json::to_vec` is the parameter `toVec`.

Each `&mut self` call holds the client until it returns and `next_id` is
one atomic `fetch_add`, so every interleaving of callers is a sequence of
the calls below. The transport tasks (`infrastructure.rs`, not under src/)
act in between: `closeReceiver` is any task dropping a receiver, and
`transportWrite` is `ws_reconnect_handler` writing the `is_ws_disconnected`
flag whose `Arc` `ws_handler` shares with it.
-/

namespace Rustdcr.Rpcclient

open Dcrjson

/-- `infrastructure::Command`: the id, the marshalled request, the reply channel. -/
structure Command where
  id : UInt64
  rpcMessage : List UInt8
  userChannel : Nat
  deriving DecidableEq, Repr

/-- The answers of the `RPCConn` capability that the client reads. -/
structure Conn where
  disableConnectOnNew : Bool
  isHttpMode : Bool

/-- The three ends one `ws_handler` call hands to the transport tasks. -/
structure Handler where
  userCommand : Nat
  disconnectWsCmdRcv : Nat
  wsDisconnectAcknowledgement : Nat
  deriving DecidableEq, Repr

/-- `Client`: the id counter, the channel ends it holds, the disconnected flag. -/
structure Client where
  id : UInt64
  wsUserCommand : Nat
  httpUserCommand : Nat
  disconnectWs : Nat
  wsDisconnectedAcknowledgement : Nat
  isWsDisconnected : Bool
  deriving DecidableEq, Repr

/-- The channels and tasks around the client. -/
structure World where
  /-- The number the next channel gets. -/
  nextChan : Nat
  /-- The channels whose receiver is alive. -/
  openRx : List Nat
  /-- Every command sent, with the channel it went to, newest first. -/
  commands : List (Nat × Command)
  /-- Every disconnect token sent, by channel, newest first. -/
  disconnectTokens : List Nat
  /-- Every `ws_handler` call, newest first. -/
  handlers : List Handler
  /-- Every id `next_id` returned, in order. -/
  ids : List UInt64
  /-- The last write of `is_ws_disconnected` was a transport task's, not the client's. -/
  flagByTransport : Bool
  deriving DecidableEq, Repr

/-- No channel, task or id yet. -/
def World.init : World := ⟨0, [], [], [], [], [], false⟩

/-- `mpsc::channel`: a fresh channel, its receiver alive. -/
def World.channel (w : World) : Nat × World :=
  (w.nextChan, { w with nextChan := w.nextChan + 1, openRx := w.nextChan :: w.openRx })

/-- The receiver of channel `r` is dropped. -/
def World.closeRx (w : World) (r : Nat) : World := { w with openRx := w.openRx.filter (· != r) }

/-- A command is queued on channel `r`. -/
def World.send (w : World) (r : Nat) (cmd : Command) : World :=
  { w with commands := (r, cmd) :: w.commands }

/-- `Client::ws_handler`: the three ends go to the transport tasks it spawns. -/
def World.wsHandler (w : World) (h : Handler) : World := { w with handlers := h :: w.handlers }

/-- The client and its world. -/
structure Sys where
  client : Client
  world : World
  deriving DecidableEq, Repr

section Calls

variable (toVec : JsonRequest → Except JsonError (List UInt8)) (conn : Conn)

/-- `new`: the client's four channels, then, in websocket mode unless
`disable_connect_on_new`, the dial and the transport; the ends nobody took
are dropped on return. -/
def Client.new (dial : Except RpcClientError Unit) : Except RpcClientError Sys :=
  let (websocket, w) := World.init.channel
  let (http, w) := w.channel
  let (disconnectWs, w) := w.channel
  let (ack, w) := w.channel
  let client : Client := ⟨1, websocket, http, disconnectWs, ack, true⟩
  if !conn.disableConnectOnNew && !conn.isHttpMode then
    match dial with
    | .ok () =>
      .ok ⟨{ client with isWsDisconnected := false },
        (w.wsHandler ⟨websocket, disconnectWs, ack⟩).closeRx http⟩
    | .error e => .error e
  else if conn.isHttpMode then .ok ⟨client, (w.closeRx websocket).closeRx disconnectWs⟩
  else .ok ⟨client, ((w.closeRx websocket).closeRx http).closeRx disconnectWs⟩

/-- `Client::is_disconnected`. -/
def Sys.isDisconnected (s : Sys) : Bool := s.client.isWsDisconnected

/-- `Client::next_id`: the counter's `fetch_add(1)`, which wraps. -/
def Sys.nextId (s : Sys) : UInt64 × Sys :=
  (s.client.id, ⟨{ s.client with id := s.client.id + 1 },
    { s.world with ids := s.world.ids ++ [s.client.id] }⟩)

/-- `Client::marshal_command`. -/
def Sys.marshalCommand (s : Sys) (method : String) (params : List Value) :
    (UInt64 × Except JsonError (List UInt8)) × Sys :=
  let (id, s) := s.nextId
  ((id, toVec ⟨"1.0", id, method, params⟩), s)

/-- `Client::send_custom_command`: the id and the receiver of the reply channel. -/
def Sys.sendCustomCommand (s : Sys) (method : String) (params : List Value) :
    Except RpcClientError (UInt64 × Nat) × Sys :=
  let ((id, msg), s) := s.marshalCommand toVec method params
  match msg with
  | .error e => (.error (.marshaller e), s)
  | .ok msg =>
    let (channel, w) := s.world.channel
    let serverChannel :=
      if conn.isHttpMode then s.client.httpUserCommand else s.client.wsUserCommand
    if serverChannel ∈ w.openRx then
      (.ok (id, channel), ⟨s.client, w.send serverChannel ⟨id, msg, channel⟩⟩)
    else (.error .rpcDisconnected, ⟨s.client, w.closeRx channel⟩)

/-- `Client::connect`: refused unless disconnected in websocket mode; then
fresh channels replace the client's before the dial. -/
def Sys.connect (s : Sys) (dial : Except RpcClientError Unit) : Except RpcClientError Unit × Sys :=
  if !s.client.isWsDisconnected || conn.isHttpMode then (.error .websocketAlreadyConnected, s)
  else
    let (userCommand, w) := s.world.channel
    let (disconnectWs, w) := w.channel
    let (ack, w) := w.channel
    let c := { s.client with
      wsUserCommand := userCommand
      disconnectWs := disconnectWs
      wsDisconnectedAcknowledgement := ack }
    match dial with
    | .error e => (.error e, ⟨c, (w.closeRx userCommand).closeRx disconnectWs⟩)
    | .ok () =>
      (.ok (), ⟨{ c with isWsDisconnected := false },
        { w.wsHandler ⟨userCommand, disconnectWs, ack⟩ with flagByTransport := false }⟩)

/-- `Client::disconnect`: nothing when already disconnected; else the flag,
then a disconnect token when its receiver is alive. The wait for the
acknowledgement changes nothing; a wait that never ends is a run that stops. -/
def Sys.disconnect (s : Sys) : Sys :=
  if s.client.isWsDisconnected then s
  else
    let c := { s.client with isWsDisconnected := true }
    let w : World := { s.world with flagByTransport := false }
    if c.disconnectWs ∈ w.openRx then
      ⟨c, { w with disconnectTokens := c.disconnectWs :: w.disconnectTokens }⟩
    else ⟨c, w⟩

/-- `ws_reconnect_handler` writes `b` to the flag: `ws_handler` hands it a
clone of the flag's `Arc`, so once a transport was started its tasks may
write either value at any time, whichever generation of the client's
channels is current. -/
def Sys.transportWrite (s : Sys) (b : Bool) : Sys :=
  if s.world.handlers.isEmpty then s
  else ⟨{ s.client with isWsDisconnected := b }, { s.world with flagByTransport := true }⟩

/-- A call on the client with what its environment answers, or a transport
task dropping a receiver or writing the flag. -/
inductive Call where
  | connect (dial : Except RpcClientError Unit)
  | disconnect
  | sendCustomCommand (method : String) (params : List Value)
  | marshalCommand (method : String) (params : List Value)
  | closeReceiver (r : Nat)
  | transportWrite (b : Bool)

/-- One call, its result dropped. -/
def Sys.step (s : Sys) : Call → Sys
  | .connect dial => (s.connect conn dial).2
  | .disconnect => s.disconnect
  | .sendCustomCommand method params => (s.sendCustomCommand toVec conn method params).2
  | .marshalCommand method params => (s.marshalCommand toVec method params).2
  | .closeReceiver r => ⟨s.client, s.world.closeRx r⟩
  | .transportWrite b => s.transportWrite b

/-- A run of calls. -/
def Sys.run (s : Sys) : List Call → Sys
  | [] => s
  | call :: calls => (s.step toVec conn call).run calls

/-- The states of one client: built by `new`, then any calls. -/
inductive Reachable : Sys → Prop
  | new {dial : Except RpcClientError Unit} {s : Sys} : Client.new conn dial = .ok s → Reachable s
  | step {s : Sys} (call : Call) : Reachable s → Reachable (s.step toVec conn call)

variable {toVec conn} in
theorem Reachable.run {s : Sys} (hs : Reachable toVec conn s) (calls : List Call) :
    Reachable toVec conn (s.run toVec conn calls) := by
  induction calls generalizing s with
  | nil => exact hs
  | cons call calls ih => exact ih (hs.step call)

end Calls

end Rustdcr.Rpcclient
