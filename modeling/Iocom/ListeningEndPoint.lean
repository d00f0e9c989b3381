import Iocom.AllocationFailures

/-!
# Accepting sockets

A listening end point hands each socket it accepts to a new connection.  When there
is no connection object, or no memory for its frame buffers, the socket is left open
and it is the listening socket which is closed.
-/

namespace Iocom

open MemoryLedger

/-- What `osal_stream_accept` gives: a socket, no new connection, or another status. -/
inductive AcceptResult where
  | accepted (newsocket : ℕ)
  | noNewConnection
  | broken (status : ℤ)
  deriving DecidableEq

/-- The status which `ioc_try_accept_new_sockets` returns. -/
inductive AcceptStatus where
  | success
  | broken (status : ℤ)
  deriving DecidableEq

/-- `iocEndPoint` with its root; `flags` are `IOC_SOCKET` and `IOC_CONNECT_UP`.
`openSockets` are those which have not been closed, `dropped` counts the callbacks
`IOC_END_POINT_DROPPED`. -/
structure ListeningEndPoint (H : Type) where
  root : PoolRoot H
  socket : Option ℕ
  flags : Bool × Bool
  openSockets : List ℕ
  dropped : ℕ

def PoolConnection.Running (con : PoolConnection) : Prop :=
  con.frameOut.buf.isSome = true ∧ con.frameIn.buf.isSome = true

variable {H : Type} [IocHeap H] (sizes : PoolSizes)

/-- `ioc_establish_connection`. -/
def PoolRoot.establishConnection (root : PoolRoot H) (flags : Bool × Bool) (newsocket : ℕ) :
    PoolStatus × PoolRoot H :=
  match root.initializeConnection sizes false with
  | (none, root) => (.memoryAllocationFailed, root)
  | (some con, root) => root.connect sizes con ⟨flags.1, flags.2, none, none, some newsocket⟩

namespace ListeningEndPoint

/-- `osal_stream_close` of the listening socket. -/
def closeSocket (e : ListeningEndPoint H) : ListeningEndPoint H :=
  { e with
    socket := none
    openSockets := e.openSockets.filter fun s => decide (e.socket ≠ some s) }

/-- `ioc_try_accept_new_sockets`; `accept` is none when it is too early to try. -/
def tryAcceptNewSockets (e : ListeningEndPoint H) (accept : Option AcceptResult) :
    AcceptStatus × ListeningEndPoint H :=
  match accept with
  | none => (.success, e)
  | some (.accepted newsocket) =>
      let (status, root) := e.root.establishConnection sizes e.flags newsocket
      let e := { e with root := root, openSockets := newsocket :: e.openSockets }
      if status = .success then (.success, e) else (.success, e.closeSocket)
  | some .noNewConnection => (.success, e)
  | some (.broken status) =>
      let e := e.closeSocket
      (.broken status, { e with dropped := e.dropped + 1 })

structure Ready (e : ListeningEndPoint H) (accept : Option AcceptResult) : Prop where
  reached : ∃ (heap : H) (ops : List PoolOp), e.root = (PoolRoot.start heap).run sizes ops
  listening : ∃ socket ∈ e.openSockets, e.socket = some socket
  fresh : ∀ newsocket, accept = some (.accepted newsocket) → newsocket ∉ e.openSockets ∧
    ∀ con ∈ e.root.con, con.stream ≠ some newsocket

/-- After the call an accepted socket has one running connection or is closed, no other
connection has come into the list, and the end point listens unless it was told that its
socket is broken. -/
structure SocketOwned (before : ListeningEndPoint H) (accept : Option AcceptResult)
    (after : ListeningEndPoint H) : Prop where
  owner : ∀ newsocket, accept = some (.accepted newsocket) →
    (∃ con ∈ after.root.con, con.stream = some newsocket ∧ con.Running ∧
      newsocket ∈ after.openSockets ∧
      ∀ other ∈ after.root.con, other.stream = some newsocket → other = con) ∨
    newsocket ∉ after.openSockets
  started : ∀ con ∈ after.root.con, con ∈ before.root.con ∨
    con.Running ∧ ∃ newsocket, accept = some (.accepted newsocket) ∧ con.stream = some newsocket
  listening : (∀ status, accept ≠ some (.broken status)) →
    after.socket = before.socket ∧ ∀ socket, before.socket = some socket →
      socket ∈ after.openSockets

end ListeningEndPoint

def mallocsSucceed (heap : H) : List ℤ → Bool
  | [] => true
  | n :: sizes =>
      match IocHeap.malloc heap n with
      | (none, _) => false
      | (some _, heap) => mallocsSucceed heap sizes

/-! ## Establishing a connection -/

namespace PoolRoot

variable {sizes} {root : PoolRoot H}

theorem freeFrame_of_not_allocated {frame : FrameBuffer} (h : frame.allocated = false)
    (frameSz : ℤ) : root.freeFrame frame frameSz = root := by
  simp [freeFrame, h]

/-- A connection without frame buffers is connected when both can be allocated. -/
theorem connect_success_iff {k : ℕ} {con : PoolConnection} {prm : ConnectParams}
    (hfind : root.findCon k = some con) (hout : con.frameOut.allocated = false)
    (hin : con.frameIn.allocated = false) (hoff : prm.frameOutBuf = none)
    (hiff : prm.frameInBuf = none) :
    (root.connect sizes k prm).1 = .success ↔
      mallocsSucceed root.heap [sizes.frameSz prm.socket, sizes.frameSz prm.socket] = true := by
  unfold connect
  dsimp only
  set started := fun con : PoolConnection =>
    { con with frameSz := sizes.frameSz prm.socket, connectUp := prm.connectUp,
               listener := false } with hstarted
  have hheap : ((root.modifyCon k started).freeConnectionBufs k).heap = root.heap := by
    unfold freeConnectionBufs
    rw [findCon_modifyCon (f := started) (fun _ => rfl) hfind]
    simp only [hstarted, freeFrame_of_not_allocated hout, freeFrame_of_not_allocated hin]
    rfl
  rw [hoff, hiff]
  simp only [takeFrame, malloc, hheap, mallocsSucceed]
  rcases hfirst : IocHeap.malloc root.heap (sizes.frameSz prm.socket) with ⟨_ | first, heap1⟩
  · simp
  · dsimp only
    rcases hsecond : IocHeap.malloc heap1 (sizes.frameSz prm.socket) with ⟨_ | second, heap2⟩
    · simp [touch, modifyCon, hsecond]
    · simp [touch, modifyCon, hsecond]

/-- A socket for which everything can be allocated is given to a new connection; else the
attempt fails. -/
theorem establishConnection_spec (sizes : PoolSizes) (flags : Bool × Bool) (newsocket : ℕ)
    (hids : Registry.KeysBelow (root.con.map PoolConnection.id) root.nextId) :
    ((root.establishConnection sizes flags newsocket).1 = .success ↔
      mallocsSucceed root.heap
        [sizes.connection, sizes.frameSz flags.1, sizes.frameSz flags.1] = true) ∧
    ((root.establishConnection sizes flags newsocket).1 = .success →
      ∃ con ∈ (root.establishConnection sizes flags newsocket).2.con,
        con.stream = some newsocket ∧ con.Running ∧
        ∀ other ∈ (root.establishConnection sizes flags newsocket).2.con,
          other ∈ root.con ∨ other = con) := by
  unfold establishConnection initializeConnection takeObject
  simp only [Bool.false_eq_true, if_false]
  rcases hobject : root.malloc sizes.connection with ⟨_ | object, root1⟩
  · obtain ⟨hblock, -⟩ := Prod.mk.inj hobject
    have hnone : mallocsSucceed root.heap
        [sizes.connection, sizes.frameSz flags.1, sizes.frameSz flags.1] = false := by
      rw [mallocsSucceed]
      split
      · rfl
      · next hsome => simp [hsome] at hblock
    simp [hnone]
  obtain ⟨hcon, -, -, -, hid⟩ := malloc_lists hobject
  dsimp only
  set new : ℕ → PoolConnection := fun id =>
    ⟨id, some object, 0, ⟨none, false⟩, ⟨none, false⟩, false, none, false⟩ with hnew
  set joined := (root1.touch (some object)).joinCon new with hjoined
  set prm : ConnectParams := ⟨flags.1, flags.2, none, none, some newsocket⟩ with hprm
  have hcons : joined.con = root.con ++ [new root.nextId] := by
    change root1.con ++ [new root1.nextId] = _
    rw [hcon, hid]
  have hnodup : (joined.con.map PoolConnection.id).Nodup := by
    rw [hcons, List.map_append, List.map_singleton]
    exact hids.append.nodup
  have hk : (root1.touch (some object)).nextId = root.nextId := hid
  rw [hk]
  have hfind : joined.findCon root.nextId = some (new root.nextId) :=
    Registry.lookup_of_mem (a := new root.nextId) hnodup
      (by rw [hcons]; exact List.mem_append_right _ List.mem_cons_self)
  have hheap : joined.heap = (IocHeap.malloc root.heap sizes.connection).2 := by
    obtain ⟨-, rfl⟩ := Prod.mk.inj hobject
    rfl
  constructor
  · rw [connect_success_iff hfind rfl rfl rfl rfl, hheap]
    obtain ⟨hblock, -⟩ := Prod.mk.inj hobject
    conv_rhs => rw [mallocsSucceed]
    rcases hboth : IocHeap.malloc root.heap sizes.connection with ⟨_ | first, heap1⟩
    · simp [hboth] at hblock
    · rfl
  · intro hsuccess
    obtain ⟨honly, con, hfound, hend⟩ := connect_spec sizes prm hfind
    rcases hend with ⟨-, hout, hin, hstream⟩ | ⟨hfailed, -⟩
    · refine ⟨con, Registry.lookup_mem hfound, hstream, ⟨hout, hin⟩, fun other hother => ?_⟩
      have hnodup' :
          ((joined.connect sizes root.nextId prm).2.con.map PoolConnection.id).Nodup := by
        rw [honly.ids]
        exact hnodup
      have hlookup : (joined.connect sizes root.nextId prm).2.findCon other.id = some other :=
        Registry.lookup_of_mem hnodup' hother
      by_cases hsame : other.id = root.nextId
      · rw [hsame, hfound] at hlookup
        cases hlookup
        exact .inr rfl
      · rw [honly.others _ hsame] at hlookup
        have hmem := Registry.lookup_mem hlookup
        rw [hcons] at hmem
        rcases List.mem_append.mp hmem with hmem | hmem
        · exact .inl hmem
        · refine absurd ?_ hsame
          rw [List.mem_singleton.mp hmem]
    · rw [hfailed] at hsuccess
      cases hsuccess

end PoolRoot

/-! ## Ownership -/

namespace ListeningEndPoint

/-- An accepted socket has exactly one owner when there is memory for a connection
object and its two frame buffers; else the listening socket is closed in its place. -/
theorem accepted_socket_owned (sizes : PoolSizes) {e : ListeningEndPoint H}
    {accept : Option AcceptResult} (h : e.Ready sizes accept) :
    e.SocketOwned accept (e.tryAcceptNewSockets sizes accept).2 ↔
      ∀ newsocket, accept = some (.accepted newsocket) →
        mallocsSucceed e.root.heap
          [sizes.connection, sizes.frameSz e.flags.1, sizes.frameSz e.flags.1] = true := by
  obtain ⟨listening, hopen, hlistening⟩ := h.listening
  have hunchanged : ∀ accept : Option AcceptResult, (∀ n, accept ≠ some (.accepted n)) →
      e.SocketOwned accept e := fun accept hnone =>
    { owner := fun n hn => absurd hn (hnone n)
      started := fun con hcon => .inl hcon
      listening := fun _ => ⟨rfl, fun socket hsocket => by
        rw [hlistening] at hsocket
        cases hsocket
        exact hopen⟩ }
  match accept with
  | none => exact iff_of_true (hunchanged _ fun _ hn => by cases hn) fun _ hn => by cases hn
  | some .noNewConnection =>
      exact iff_of_true (hunchanged _ fun _ hn => by cases hn) fun _ hn => by cases hn
  | some (.broken status) =>
      refine iff_of_true ⟨fun _ hn => (by cases hn), fun con hcon => .inl hcon, fun hnot => ?_⟩
        fun _ hn => by cases hn
      exact absurd rfl (hnot status)
  | some (.accepted newsocket) =>
      have hids : Registry.KeysBelow (e.root.con.map PoolConnection.id) e.root.nextId := by
        obtain ⟨heap, ops, hroot⟩ := h.reached
        rw [hroot]
        exact (PoolRoot.run_accounts sizes heap ops).con
      obtain ⟨hiff, howned⟩ := PoolRoot.establishConnection_spec sizes e.flags newsocket hids
      obtain ⟨hclosed, hfresh⟩ := h.fresh newsocket rfl
      have hcondition : (∀ n, some (AcceptResult.accepted newsocket) = some (.accepted n) →
          mallocsSucceed e.root.heap
            [sizes.connection, sizes.frameSz e.flags.1, sizes.frameSz e.flags.1] = true) ↔
          (e.root.establishConnection sizes e.flags newsocket).1 = .success := by
        rw [hiff]
        exact ⟨fun hall => hall newsocket rfl, fun hmemory _ _ => hmemory⟩
      rw [hcondition]
      unfold tryAcceptNewSockets
      dsimp only
      by_cases hsuccess : (e.root.establishConnection sizes e.flags newsocket).1 = .success
      · rw [if_pos hsuccess]
        obtain ⟨con, hcon, hstream, hrunning, hothers⟩ := howned hsuccess
        refine iff_of_true ⟨fun n hn => .inl ?_, fun other hother => ?_, fun _ => ?_⟩ hsuccess
        · cases hn
          refine ⟨con, hcon, hstream, hrunning, List.mem_cons_self, fun other hother hsame => ?_⟩
          rcases hothers other hother with hold | hnew
          · exact absurd hsame (hfresh other hold)
          · exact hnew
        · rcases hothers other hother with hold | rfl
          · exact .inl hold
          · exact .inr ⟨hrunning, newsocket, rfl, hstream⟩
        · refine ⟨rfl, fun socket hsocket => List.mem_cons_of_mem _ ?_⟩
          rw [hlistening] at hsocket
          cases hsocket
          exact hopen
      · rw [if_neg hsuccess]
        refine iff_of_false (fun hkept => ?_) hsuccess
        have hsocket := (hkept.listening fun status hn => by cases hn).1
        rw [hlistening] at hsocket
        cases hsocket

def listeningOn5 (heap : ScriptedHeap) : ListeningEndPoint ScriptedHeap :=
  ⟨PoolRoot.start heap, some 5, (true, false), [5], 0⟩

theorem listeningOn5_ready (sizes : PoolSizes) (heap : ScriptedHeap) :
    (listeningOn5 heap).Ready sizes (some (.accepted 6)) where
  reached := ⟨heap, [], rfl⟩
  listening := ⟨5, List.mem_cons_self, rfl⟩
  fresh := by
    intro newsocket hn
    cases hn
    simp [listeningOn5, PoolRoot.start]

theorem accepted_socket_6_owned :
    (listeningOn5 ⟨[], 1⟩).SocketOwned (some (.accepted 6))
      ((listeningOn5 ⟨[], 1⟩).tryAcceptNewSockets poolSizes64 (some (.accepted 6))).2 :=
  (accepted_socket_owned poolSizes64 (listeningOn5_ready poolSizes64 _)).mpr fun _ _ => rfl

/-- When the second frame buffer cannot be allocated, the end point listens no more. -/
theorem accepted_socket_lost :
    ¬∀ (sizes : PoolSizes) (e : ListeningEndPoint ScriptedHeap) (accept : Option AcceptResult),
      e.Ready sizes accept → e.SocketOwned accept (e.tryAcceptNewSockets sizes accept).2 := by
  intro hall
  have howned := hall poolSizes64 _ _ (listeningOn5_ready poolSizes64 ⟨[true, true, false], 1⟩)
  have hsocket := (howned.listening fun status hn => by cases hn).1
  revert hsocket
  decide

end ListeningEndPoint

end Iocom
