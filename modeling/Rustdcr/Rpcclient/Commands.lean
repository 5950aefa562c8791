import Rustdcr.Rpcclient.ClientInvariants

/-!
# The commands a client queues

Every `send_custom_command` that returns `Ok` has queued one `Command` on a
user-command channel; the world keeps them all, newest first. The transport
routes a server's response by the id in it to the command's reply channel,
so what it needs of the queued commands holds over every run (`CommandsInv`,
kept by every call):

* `commands_routable` — each queued command's request carries the command's
  own id; the ids increase in the order the commands were queued, while fewer
  than 2^64 ids were allocated; and no two commands share a reply channel;
* `commands_delivered` — in websocket mode every command went to the
  user-command channel of a transport some `ws_handler` call started, in HTTP
  mode to the HTTP channel.
-/

namespace Rustdcr.Rpcclient

open Dcrjson

section Steps

variable (toVec : JsonRequest → Except JsonError (List UInt8)) (conn : Conn)

/-- What the queued commands satisfy in every reachable state. -/
structure CommandsInv (s : Sys) : Prop where
  /-- The commands' ids, oldest first, were allocated in that order. -/
  ids_sublist : List.Sublist (s.world.commands.map fun c => c.2.id).reverse s.world.ids
  /-- A command's message is the request `marshal_command` built with its id. -/
  requests : ∀ c ∈ s.world.commands,
    ∃ method params, toVec ⟨"1.0", c.2.id, method, params⟩ = .ok c.2.rpcMessage
  replies_nodup : (s.world.commands.map fun c => c.2.userChannel).Nodup
  replies_fresh : ∀ c ∈ s.world.commands, c.2.userChannel < s.world.nextChan
  delivered_http : conn.isHttpMode = true →
    ∀ c ∈ s.world.commands, c.1 = s.client.httpUserCommand
  delivered_ws : conn.isHttpMode = false →
    ∀ c ∈ s.world.commands, c.1 ∈ s.world.handlers.map Handler.userCommand

variable {toVec conn} {s : Sys}

theorem CommandsInv.new {dial : Except RpcClientError Unit} (h : Client.new conn dial = .ok s) :
    CommandsInv toVec conn s := by
  unfold Client.new at h
  dsimp only at h
  split_ifs at h <;> (try split at h) <;> cases h <;>
    exact ⟨List.Sublist.slnil, nofun, List.nodup_nil, nofun, fun _ => nofun, fun _ => nofun⟩

theorem CommandsInv.closeReceiver (hc : CommandsInv toVec conn s) (r : Nat) :
    CommandsInv toVec conn ⟨s.client, s.world.closeRx r⟩ :=
  { hc with }

theorem CommandsInv.channel (hc : CommandsInv toVec conn s) :
    CommandsInv toVec conn ⟨s.client, s.world.channel.2⟩ :=
  { hc with replies_fresh := fun c h => Nat.lt_succ_of_lt (hc.replies_fresh c h) }

theorem CommandsInv.disconnect (hc : CommandsInv toVec conn s) :
    CommandsInv toVec conn s.disconnect := by
  unfold Sys.disconnect
  dsimp only
  split_ifs
  · exact hc
  · exact { hc with }
  · exact { hc with }

theorem CommandsInv.nextId (hc : CommandsInv toVec conn s) :
    CommandsInv toVec conn s.nextId.2 :=
  { hc with ids_sublist := hc.ids_sublist.trans (List.sublist_append_left _ _) }

/-- The command `send_custom_command` queues: its id is the newest, its reply
channel is fresh, and its channel is the client's server channel, which in
websocket mode only a transport reads. -/
theorem CommandsInv.sendCustomCommand (hi : ClientInv s) (hc : CommandsInv toVec conn s)
    (method : String) (params : List Value) :
    CommandsInv toVec conn (s.sendCustomCommand toVec conn method params).2 := by
  have hn := hc.nextId
  unfold Sys.sendCustomCommand Sys.marshalCommand
  dsimp only
  split
  · exact hn
  rename_i bytes hb
  generalize hsrv : (if conn.isHttpMode then s.nextId.2.client.httpUserCommand
    else s.nextId.2.client.wsUserCommand) = server
  split_ifs with hopen
  · refine ⟨?_, ?_, ?_, ?_, ?_, ?_⟩
    · -- the new id goes last in both lists
      simp only [World.send, World.channel, Sys.nextId, List.map_cons, List.reverse_cons]
      exact hc.ids_sublist.append (List.Sublist.refl _)
    · exact List.forall_mem_cons.2 ⟨⟨method, params, hb⟩, hc.requests⟩
    · refine List.nodup_cons.2 ⟨fun h => ?_, hc.replies_nodup⟩
      obtain ⟨c, hc', he⟩ := List.mem_map.1 h
      exact absurd (hc.replies_fresh c hc') (by simp [Sys.nextId, World.channel] at he ⊢; omega)
    · exact List.forall_mem_cons.2 ⟨Nat.lt_succ_self _,
        fun c h => Nat.lt_succ_of_lt (hc.replies_fresh c h)⟩
    · intro hhttp
      exact List.forall_mem_cons.2 ⟨by simp [← hsrv, hhttp, Sys.nextId], hc.delivered_http hhttp⟩
    · intro hws
      refine List.forall_mem_cons.2 ⟨?_, hc.delivered_ws hws⟩
      -- the client's websocket channel is not the fresh reply channel, so
      -- its receiver was alive before, and only a transport holds it
      simp only [← hsrv, hws, Bool.false_eq_true, if_false, Sys.nextId, World.channel,
        List.mem_cons] at hopen ⊢
      exact hi.open_handed (hopen.resolve_left (Nat.ne_of_lt hi.fresh_client))
  · exact hn.channel.closeReceiver _

theorem CommandsInv.connect (hc : CommandsInv toVec conn s) (dial : Except RpcClientError Unit) :
    CommandsInv toVec conn (s.connect conn dial).2 := by
  unfold Sys.connect
  split_ifs
  · exact hc
  have hw := hc.channel.channel.channel
  cases dial with
  | error e =>
    dsimp only
    exact { (hw.closeReceiver s.world.nextChan).closeReceiver (s.world.nextChan + 1) with }
  | ok u =>
    dsimp only
    exact { hw with
      delivered_ws := fun hws c h => List.mem_cons_of_mem _ (hw.delivered_ws hws c h) }

theorem CommandsInv.transportWrite (hc : CommandsInv toVec conn s) (b : Bool) :
    CommandsInv toVec conn (s.transportWrite b) := by
  unfold Sys.transportWrite
  split
  · exact hc
  · exact { hc with }

theorem CommandsInv.step (hi : ClientInv s) (hc : CommandsInv toVec conn s) :
    ∀ call, CommandsInv toVec conn (s.step toVec conn call)
  | .connect dial => hc.connect dial
  | .disconnect => hc.disconnect
  | .sendCustomCommand method params => hc.sendCustomCommand hi method params
  | .marshalCommand _ _ => hc.nextId
  | .closeReceiver r => hc.closeReceiver r
  | .transportWrite b => hc.transportWrite b

theorem Reachable.commandsInv (hs : Reachable toVec conn s) : CommandsInv toVec conn s := by
  induction hs with
  | new h => exact .new h
  | step call hs ih => exact ih.step hs.clientInv call

end Steps

/-! ## What the transport can rely on -/

section Commands

variable (toVec : JsonRequest → Except JsonError (List UInt8)) (conn : Conn)

/-- Over every run, each queued command's request carries the command's own
id, the commands' ids increase in the order they were queued while fewer than
2^64 ids were allocated, and every command has a reply channel of its own. -/
theorem commands_routable {s : Sys} (hs : Reachable toVec conn s) :
    (∀ c ∈ s.world.commands,
      ∃ method params, toVec ⟨"1.0", c.2.id, method, params⟩ = .ok c.2.rpcMessage) ∧
    (s.world.ids.length ≤ 2 ^ 64 - 1 →
      ((s.world.commands.map fun c => c.2.id.toNat).reverse).Pairwise (· < ·)) ∧
    (s.world.commands.map fun c => c.2.userChannel).Nodup := by
  have hc := hs.commandsInv
  refine ⟨hc.requests, fun hn => ?_, hc.replies_nodup⟩
  have hsub := hc.ids_sublist.map UInt64.toNat
  rw [hs.clientInv.ids_counted.toNat hn, List.map_reverse, List.map_map] at hsub
  exact (List.pairwise_lt_range' 1 _).sublist hsub

/-- Two `getblockcount` requests in a row. -/
def twoRequests : List Call :=
  [.sendCustomCommand "getblockcount" [], .sendCustomCommand "getblockcount" []]

theorem commands_routable_twoRequests :
    Reachable emptyMarshal wsConn (connectedClient.run emptyMarshal wsConn twoRequests) ∧
      (connectedClient.run emptyMarshal wsConn twoRequests).world.commands =
        [(0, ⟨2, [], 5⟩), (0, ⟨1, [], 4⟩)] ∧
      (∀ c ∈ (connectedClient.run emptyMarshal wsConn twoRequests).world.commands,
        ∃ method params, emptyMarshal ⟨"1.0", c.2.id, method, params⟩ = .ok c.2.rpcMessage) ∧
      ((connectedClient.run emptyMarshal wsConn twoRequests).world.ids.length ≤ 2 ^ 64 - 1 →
        (((connectedClient.run emptyMarshal wsConn twoRequests).world.commands.map
          fun c => c.2.id.toNat).reverse).Pairwise (· < ·)) ∧
      ((connectedClient.run emptyMarshal wsConn twoRequests).world.commands.map
        fun c => c.2.userChannel).Nodup :=
  have hs := connectedClient_reachable.run twoRequests
  ⟨hs, rfl, commands_routable emptyMarshal wsConn hs⟩

/-- Over every run, in websocket mode every command was queued on the
user-command channel of a transport some `ws_handler` call started; in HTTP
mode on the client's HTTP channel. -/
theorem commands_delivered {s : Sys} (hs : Reachable toVec conn s) :
    ∀ c ∈ s.world.commands, (conn.isHttpMode = true → c.1 = s.client.httpUserCommand) ∧
      (conn.isHttpMode = false → c.1 ∈ s.world.handlers.map Handler.userCommand) :=
  fun c h => ⟨fun hm => hs.commandsInv.delivered_http hm c h,
    fun hm => hs.commandsInv.delivered_ws hm c h⟩

theorem commands_delivered_twoRequests :
    Reachable emptyMarshal wsConn (connectedClient.run emptyMarshal wsConn twoRequests) ∧
      ∀ c ∈ (connectedClient.run emptyMarshal wsConn twoRequests).world.commands,
        (wsConn.isHttpMode = true →
          c.1 = (connectedClient.run emptyMarshal wsConn twoRequests).client.httpUserCommand) ∧
        (wsConn.isHttpMode = false →
          c.1 ∈ (connectedClient.run emptyMarshal wsConn twoRequests).world.handlers.map
            Handler.userCommand) :=
  have hs := connectedClient_reachable.run twoRequests
  ⟨hs, commands_delivered emptyMarshal wsConn hs⟩

end Commands

end Rustdcr.Rpcclient
