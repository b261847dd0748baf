import StreamSocket.L2Machine.EventLoop
import StreamSocket.L2Machine.TcpOverIp
import StreamSocket.L2Machine.TcpPeer

/-!
# TCPMinnowSocket: a TCPPeer between a socket pair and a datagram device

The owner writes to and reads from one end of a socket pair. The thread of the
TCPPeer holds the other end; its event loop has four rules, which move bytes
and segments between the socket pair, the peer, a queue of outgoing segments
and the device, and nobody keeps a handle of them. The adapter to the device is a
parameter, as in the source.

What the kernel does is part of the world: the bytes in the socket pair, the
datagram that a read of the device gives, and how many bytes one read or write
of the socket pair moves (`none`: it would block).

* `initializeTCP_eq`: the four rules.
* `rule_trivial`, `pass_cases`: a walk over the rules closes the outbound stream
  or does nothing.
* `progress`: a rule that is served uses its descriptor or loses interest.
-/
namespace StreamSocket.L2

open L1

/-! ## The socket -/

/-- What a TCPMinnowSocket calls of its adapter: `read` gets the bytes that the
device has, and each function gives the frames that it writes. `none`: an
exception. -/
structure Adapter (α : Type) where
  read : α → Bytes → Option (Option TCPSegment × List Bytes × α)
  write : α → TCPSegment → Option (List Bytes × α)
  tick : α → Nat → Option (List Bytes × α)

/-- mirrors src/util/tuntap_adapter.cc:6-18, src/util/tuntap_adapter.hh:27,
src/util/fd_adapter.hh:43 -/
def Adapter.tunFd : Adapter TCPOverIPv4Adapter where
  read a bytes := (a.read bytes).map fun (seg, a) => (seg, [], a)
  write a seg := (a.wrapTcpInIp seg).bind fun (d, _) =>
    d.buffers.map fun buffers => ([buffers.flatten], a)
  tick a _ := some ([], a)

/-- `device` is the adapter's descriptor.
mirrors src/util/tcp_minnow_socket.hh:24-59 -/
structure TCPMinnowSocket (α : Type) where
  threadData : FileDescriptor
  device : FileDescriptor
  datagramAdapter : α
  tcp : TCPPeer
  outgoingSegments : List TCPSegment := []
  inboundShutdown : Bool := false
  outboundShutdown : Bool := false
  deriving DecidableEq, Repr

/-- The socket, and its side of the kernel. `sent` is all that was ever written
to the device. -/
structure World (α : Type) extends TCPMinnowSocket α where
  toThread : Bytes := []
  ownerShut : Bool := false
  toOwner : Bytes := []
  threadShut : Bool := false
  incoming : Bytes := []
  moves : Option Nat := none
  sent : List Bytes := []
  deriving DecidableEq, Repr

variable {α : Type}

namespace World

open FileDescriptor (arrived accepted fill_eq fill_total drain_eq drain_total)

/-- The loop of `collect_segments`.
mirrors src/util/tcp_minnow_socket.cc:315-317 -/
def collect : Nat → TCPPeer → Except String (TCPPeer × List TCPSegment)
  | 0, _ => .error "collect_segments does not end"
  | fuel + 1, p => p.maybeSend.bind fun
    | (p, none) => .ok (p, [])
    | (p, some seg) => (collect fuel p).map fun (p, segs) => (p, seg :: segs)

/-- Each round sends a queued message, one that is made of the stream (a SYN and
a FIN may come to it), or an empty one.
mirrors src/util/tcp_minnow_socket.cc:309-318 -/
def collectSegments (w : World α) : Except String (World α) :=
  (collect (w.tcp.sender.sendMessages.length + w.tcp.outboundStream.stream.length + 4) w.tcp).map
    fun (p, segs) => { w with tcp := p, outgoingSegments := w.outgoingSegments ++ segs }

/-! ## The four rules -/

variable (A : Adapter α)

/-- What an adapter has done: it wrote `frames`. -/
def used (w : World α) (a : α) (frames : List Bytes) : World α :=
  { w with
    datagramAdapter := a
    device := { w.device with writeCount := w.device.writeCount + UInt32.ofNat frames.length }
    sent := w.sent ++ frames }

/-- mirrors src/util/tcp_minnow_socket.cc:96-100 -/
def receiveSegment (w : World α) : Except String (World α) :=
  match A.read w.datagramAdapter w.incoming with
  | none => .error "adapter"
  | some (seg, frames, a) =>
    let w := w.used a frames
    let w := { w with device := { w.device with readCount := w.device.readCount + 1 } }
    match seg with
    | none => .ok w
    | some seg =>
      match w.tcp.receive seg with
      | none => .error "receive"
      | some tcp => collectSegments { w with tcp := tcp }

/-- mirrors src/util/tcp_minnow_socket.cc:109 -/
def wantsSegment (w : World α) : Bool := w.tcp.active

/-- What rule 2 has read is taken out of the socket pair.
mirrors src/util/tcp_minnow_socket.cc:117-124 -/
def readOwner (w : World α) : Except String (World α) :=
  (w.threadData.fill w.tcp.outboundStream (arrived w.toThread w.ownerShut w.moves)).map
    fun (fd, out, taken) =>
      { w with
        threadData := fd
        toThread := w.toThread.drop taken
        tcp := { w.tcp with outboundStream := out }
        outboundShutdown := w.outboundShutdown || fd.eof }

/-- mirrors src/util/tcp_minnow_socket.cc:116-134 -/
def pushBytes (w : World α) : Except String (World α) :=
  w.readOwner.bind fun w => w.tcp.push.bind fun tcp => collectSegments { w with tcp := tcp }

/-- mirrors src/util/tcp_minnow_socket.cc:135-138 -/
def wantsBytes (w : World α) : Bool :=
  w.tcp.active && !w.outboundShutdown &&
    decide (Writer.availableCapacity w.tcp.outboundStream > 0)

/-- mirrors src/util/tcp_minnow_socket.cc:139-142 -/
def closeOutbound (w : World α) : World α :=
  { w with
    tcp := { w.tcp with outboundStream := Writer.close w.tcp.outboundStream }
    outboundShutdown := true }

/-- A write to a socket whose sending side is shut down fails.
mirrors src/util/tcp_minnow_socket.cc:154-158 -/
def writeOwner (w : World α) : Except String (World α) :=
  (w.threadData.drain w.tcp.inboundStream w.threadShut (accepted w.moves)).map
    fun (fd, inp, bytes) =>
      { w with
        threadData := fd
        toOwner := w.toOwner ++ bytes
        tcp := { w.tcp with inboundStream := inp } }

/-- mirrors src/util/tcp_minnow_socket.cc:160-167 -/
def shutOwner (w : World α) : World α :=
  if Reader.isFinished w.tcp.inboundStream || Reader.hasError w.tcp.inboundStream then
    { w with
      threadData := { w.threadData with writeCount := w.threadData.writeCount + 1 }
      threadShut := true
      inboundShutdown := true }
  else w

/-- mirrors src/util/tcp_minnow_socket.cc:149-168 -/
def readBytes (w : World α) : Except String (World α) := w.writeOwner.map shutOwner

/-- mirrors src/util/tcp_minnow_socket.cc:169-173 -/
def hasBytes (w : World α) : Bool :=
  Reader.bytesBuffered w.tcp.inboundStream != 0 ||
    ((Reader.isFinished w.tcp.inboundStream || Reader.hasError w.tcp.inboundStream) &&
      !w.inboundShutdown)

/-- The loop of rule 4.
mirrors src/util/tcp_minnow_socket.cc:181-184 -/
def sendQueued : List TCPSegment → World α → Except String (World α)
  | [], w => .ok { w with outgoingSegments := [] }
  | seg :: segs, w =>
    match A.write w.datagramAdapter seg with
    | none => .error "adapter"
    | some (frames, a) => sendQueued segs (w.used a frames)

/-- mirrors src/util/tcp_minnow_socket.cc:180-185 -/
def sendSegments (w : World α) : Except String (World α) := sendQueued A w.outgoingSegments w

/-- mirrors src/util/tcp_minnow_socket.cc:186 -/
def hasSegments (w : World α) : Bool := !w.outgoingSegments.isEmpty

/-- mirrors src/util/tcp_minnow_socket.cc:91-109 -/
def rule1 : FDRule (World α) where
  handle := 0
  categoryId := 0
  interest := wantsSegment
  callback := receiveSegment A
  fd w := w.device
  direction := .In
  cancel := .ok
  recover w := .ok (w, false)

/-- mirrors src/util/tcp_minnow_socket.cc:111-142 -/
def rule2 : FDRule (World α) where
  handle := 1
  categoryId := 1
  interest := wantsBytes
  callback := pushBytes
  fd w := w.threadData
  direction := .In
  cancel w := .ok w.closeOutbound
  recover w := .ok (w, false)

/-- mirrors src/util/tcp_minnow_socket.cc:144-173 -/
def rule3 : FDRule (World α) where
  handle := 2
  categoryId := 2
  interest := hasBytes
  callback := readBytes
  fd w := w.threadData
  direction := .Out
  cancel := .ok
  recover w := .ok (w, false)

/-- mirrors src/util/tcp_minnow_socket.cc:175-186 -/
def rule4 : FDRule (World α) where
  handle := 3
  categoryId := 3
  interest := hasSegments
  callback := sendSegments A
  fd w := w.device
  direction := .Out
  cancel := .ok
  recover w := .ok (w, false)

/-- `add_rule` with a name.
mirrors src/util/eventloop.hh:107-112 -/
def addNamed (loop : EventLoop (World α)) (name : String) (r : FDRule (World α)) :
    Except Thrown (EventLoop (World α)) :=
  (loop.addCategory name).bind fun (loop, id) =>
    (loop.addFdRule id r.fd r.direction r.callback r.interest r.cancel r.recover).map Prod.fst

/-- mirrors src/util/tcp_minnow_socket.cc:69-187 -/
def initializeTCP : Except Thrown (EventLoop (World α)) :=
  (addNamed {} "receive TCP segment from the network" (rule1 A)).bind fun loop =>
    (addNamed loop "push bytes to TCPPeer" rule2).bind fun loop =>
      (addNamed loop "read bytes from inbound stream" rule3).bind fun loop =>
        addNamed loop "send TCP segment" (rule4 A)

/-- mirrors src/util/tcp_minnow_socket.cc:250-255 -/
def connect (w : World α) : Except String (World α) :=
  w.tcp.push.bind fun tcp => (collectSegments { w with tcp := tcp }).bind fun w =>
    if w.tcp.sender.sequenceNumbersInFlight ≠ 1 then
      .error "After TCPConnection::connect(), expected sequence_numbers_in_flight() == 1"
    else .ok w

/-- mirrors src/util/tcp_minnow_socket.cc:45-51 -/
def ticks (ms : Nat) (w : World α) : Except String (World α) :=
  if w.tcp.active then
    (collectSegments { w with tcp := w.tcp.tick ms }).bind fun w =>
      match A.tick w.datagramAdapter ms with
      | none => .error "adapter"
      | some (frames, a) => .ok (w.used a frames)
  else .ok w

/-- A round of `_tcp_loop`; `false`: it was the last.
mirrors src/util/tcp_minnow_socket.cc:36-51 -/
def round (abort : Bool) (answers : List Answer) (ms : Nat) (loop : EventLoop (World α))
    (w : World α) : Except Thrown (Bool × EventLoop (World α) × World α) :=
  (loop.waitNextEvent answers w).bind fun (result, loop, w) =>
    if result = .Exit ∨ abort then .ok (false, loop, w)
    else (liftThrow (ticks A ms w)).map fun w => (true, loop, w)

/-! ## What the loop does with the rules -/

/-- The rules that `_initialize_TCP` adds. -/
def rules : List (FDRule (World α)) := [rule1 A, rule2, rule3, rule4 A]

def initialLoop : EventLoop (World α) where
  ruleCategories :=
    ["receive TCP segment from the network", "push bytes to TCPPeer",
      "read bytes from inbound stream", "send TCP segment"]
  fdRules := rules A
  made := 4

theorem initializeTCP_eq : initializeTCP A = .ok (initialLoop A) := rfl

variable {A}

/-- Only rule 2 does something when it is cancelled. -/
theorem rule_trivial {r : FDRule (World α)} (hr : r ∈ rules A) :
    (∀ w, r.recover w = .ok (w, false)) ∧
      (r = rule2 ∨ (r.handle ≠ 1 ∧ ∀ w, r.cancel w = .ok w)) := by
  simp only [rules, List.mem_cons, List.not_mem_nil, or_false] at hr
  rcases hr with rfl | rfl | rfl | rfl
  · exact ⟨fun _ => rfl, .inr ⟨(by decide : (0 : Nat) ≠ 1), fun _ => rfl⟩⟩
  · exact ⟨fun _ => rfl, .inl rfl⟩
  · exact ⟨fun _ => rfl, .inr ⟨(by decide : (2 : Nat) ≠ 1), fun _ => rfl⟩⟩
  · exact ⟨fun _ => rfl, .inr ⟨(by decide : (3 : Nat) ≠ 1), fun _ => rfl⟩⟩

open EventLoop

theorem pass_eq {rs ks : List (FDRule (World α))} {w w' : World α}
    (h : Pass Handled Handled rs w ks w') (hr : ∀ r ∈ rs, r ∈ rules A ∧ r.handle ≠ 1) : w' = w := by
  refine h.keeps (P := fun x => x = w) (fun r hmem x x' hx hc => ?_)
    (fun r hmem x x' keep hx hc => ?_) rfl
  · obtain ⟨hin, hne⟩ := hr r hmem
    rcases (rule_trivial hin).2 with rfl | ⟨-, htriv⟩
    · exact absurd rfl hne
    · rw [htriv] at hc
      cases hc
      exact hx
  · rw [(rule_trivial (hr r hmem).1).1] at hc
    cases hc
    exact hx

theorem pass_cases {rs ks : List (FDRule (World α))} {w w' : World α}
    (h : Pass Handled Handled rs w ks w') (hr : ∀ r ∈ rs, r ∈ rules A) :
    w' = w ∨ w' = w.closeOutbound := by
  refine h.keeps (P := fun x => x = w ∨ x = w.closeOutbound) (fun r hmem x x' hx hc => ?_)
    (fun r hmem x x' keep hx hc => ?_) (.inl rfl)
  · rcases (rule_trivial (hr r hmem)).2 with rfl | ⟨-, htriv⟩
    · cases hc
      rcases hx with rfl | rfl
      · exact .inr rfl
      · exact .inr rfl
    · rw [htriv] at hc
      cases hc
      exact hx
  · rw [(rule_trivial (hr r hmem)).1] at hc
    cases hc
    exact hx

/-- The rules keep their order, so each is there once. -/
theorem rules_nodup {rs : List (FDRule (World α))} (h : rs.Sublist (rules A)) :
    (rs.map (·.handle)).Nodup :=
  (h.map _).nodup (by decide : ([0, 1, 2, 3] : List Nat).Nodup)

/-- A walk that does not come to rule 2 does nothing. -/
theorem pass_but {pre₀ post₀ rs ks : List (FDRule (World α))} {w w' : World α}
    (hsub : (pre₀ ++ rule2 :: post₀).Sublist (rules A)) (h : Pass Handled Handled rs w ks w')
    (hrs : ∀ r ∈ rs, r ∈ pre₀ ∨ r ∈ post₀) : w' = w := by
  have hn := rules_nodup hsub
  rw [List.map_append, List.map_cons] at hn
  obtain ⟨-, hn₂, hn₁⟩ := List.nodup_append.mp hn
  refine pass_eq h fun r hr => ⟨hsub.subset ?_, fun he => ?_⟩
  · rcases hrs r hr with hr | hr
    · exact List.mem_append_left _ hr
    · exact List.mem_append_right _ (List.mem_cons_of_mem _ hr)
  · rcases hrs r hr with hr | hr
    · exact hn₁ _ (List.mem_map_of_mem hr) 1 List.mem_cons_self he
    · refine (List.nodup_cons.mp hn₂).1 ?_
      rw [show (rule2 : FDRule (World α)).handle = r.handle from he.symm]
      exact List.mem_map_of_mem hr

/-- A read of the socket pair would give something. -/
def Readable (w : World α) : Prop :=
  FileDescriptor.Readable w.toThread w.ownerShut w.moves

instance (w : World α) : Decidable w.Readable :=
  inferInstanceAs (Decidable (FileDescriptor.Readable ..))

/-- The thread's end of the socket pair is called readable only if it is. -/
def Honest (loop : EventLoop (World α)) (answers : List Answer) (w : World α) : Prop :=
  Tells loop answers w 1 fun p x => p.verdict .In = .ready → x.Readable

instance (loop : EventLoop (World α)) (answers : List Answer) (w : World α) :
    Decidable (Honest loop answers w) := inferInstanceAs (Decidable (Tells ..))

/-- It is called writable only if a write does not block. -/
def Roomy (loop : EventLoop (World α)) (answers : List Answer) (w : World α) : Prop :=
  Tells loop answers w 2 fun p x => p.verdict .Out = .ready → x.moves ≠ none

instance (loop : EventLoop (World α)) (answers : List Answer) (w : World α) :
    Decidable (Roomy loop answers w) := inferInstanceAs (Decidable (Tells ..))

/-- A rule that is served: rule 2 in the world as it was when the call came, and
wanting bytes that are there; the others there, or where rule 2 has gone. -/
theorem due_cases {loop : EventLoop (World α)} {answers : List Answer} {w w₂ : World α}
    {r : FDRule (World α)} {left : List (FDRule (World α))}
    (hsub : loop.fdRules.Sublist (rules A)) (hk : Honest loop answers w)
    (h : Due loop.fdRules answers w r left w₂) :
    (r = rule2 ∧ w₂ = w ∧ w.wantsBytes = true ∧ w.Readable) ∨
    (r ∈ [rule1 A, rule3, rule4 A] ∧ (w₂ = w ∨ w₂ = w.closeOutbound)) := by
  obtain ⟨hsplit, -, hpolled, hbefore, -, hi, hafter, hsaid, hready, -, hwalk⟩ := h
  rename_i pre₀ post₀ pre post ks pollfds p w₀ w₁
  have hr : r ∈ rules A := hsub.subset (by rw [hsplit]; simp)
  have hpass := (setUp_pass hpolled).1
  rcases (rule_trivial hr).2 with rfl | ⟨hne, -⟩
  · rw [hsplit] at hsub
    have h0 := pass_but hsub hbefore.handled fun x hx => .inl hx
    have h1 := pass_but hsub hafter.handled fun x hx => .inr hx
    have h2 := pass_but hsub hwalk.handled fun x hx => .inl (hbefore.sublist.subset hx)
    rw [h1, h0] at hpolled
    refine .inl ⟨rfl, by rw [h2, h1, h0], by rw [← h0]; exact hi, ?_⟩
    exact hk _ _ _ hpolled pre.length rule2 p (by simp) rfl hsaid hready
  · have hmem : r ∈ [rule1 A, rule3, rule4 A] := by
      simp only [rules, List.mem_cons, List.not_mem_nil, or_false] at hr ⊢
      rcases hr with rfl | rfl | rfl | rfl
      · exact .inl rfl
      · exact absurd rfl hne
      · exact .inr (.inl rfl)
      · exact .inr (.inr rfl)
    have h1 := pass_cases hpass.handled fun x hx => hsub.subset hx
    have h2 := pass_cases hwalk.handled fun x hx =>
      hsub.subset (hpass.sublist.subset (List.mem_append_left _ hx))
    refine .inr ⟨hmem, ?_⟩
    rcases h1 with rfl | rfl
    · exact h2
    · rcases h2 with rfl | rfl
      · exact .inr rfl
      · exact .inr rfl

/-! ## No busy wait -/

theorem count_ne (n : UInt32) : n ≠ n + 1 := by simp

theorem collectSegments_frame {w w' : World α} (h : w.collectSegments = .ok w') :
    ∃ p segs, w' = { w with tcp := p, outgoingSegments := w.outgoingSegments ++ segs } := by
  obtain ⟨⟨p, segs⟩, -, rfl⟩ := Except.map_eq_ok.mp h
  exact ⟨p, segs, rfl⟩

theorem available_pos {w : World α} (h : w.wantsBytes = true) :
    0 < Writer.availableCapacity w.tcp.outboundStream := by
  unfold wantsBytes at h
  simpa using (Bool.and_eq_true_iff.mp h).2

/-- What rule 2 reads when there is something to read. -/
theorem readOwner_eq {w w' : World α} (hr : w.Readable) (hwants : w.wantsBytes = true)
    (h : w.readOwner = .ok w') : ∃ fd out taken data,
      FileDescriptor.Filled w.threadData w.tcp.outboundStream w.toThread w.ownerShut fd out taken
        data ∧
      w' = { w with
        threadData := fd
        toThread := w.toThread.drop taken
        tcp := { w.tcp with outboundStream := out }
        outboundShutdown := w.outboundShutdown || fd.eof } := by
  obtain ⟨⟨fd, out, taken⟩, hfill, rfl⟩ := Except.map_eq_ok.mp h
  obtain ⟨data, hfilled⟩ := fill_eq hr (available_pos hwants) hfill
  exact ⟨fd, out, taken, data, hfilled, rfl⟩

theorem readOwner_total {w : World α} (hr : w.Readable) (hwants : w.wantsBytes = true) :
    ∃ w', w.readOwner = .ok w' := by
  obtain ⟨fd, out, taken, data, hfill, -⟩ :=
    w.threadData.fill_total hr (available_pos hwants)
  exact ⟨_, Except.map_eq_ok.mpr ⟨_, hfill, rfl⟩⟩

/-- A shutdown counts as a write. -/
theorem shutOwner_cases (w : World α) :
    w.shutOwner.threadData.writeCount = w.threadData.writeCount + 1 ∨
      (w.shutOwner = w ∧ Reader.isFinished w.tcp.inboundStream = false ∧
        Reader.hasError w.tcp.inboundStream = false) := by
  unfold shutOwner
  split
  · exact .inl rfl
  · rename_i hdone
    exact .inr ⟨rfl, by simpa using hdone⟩

/-- Rule 3 writes or shuts down, or has nothing to do. -/
theorem readBytes_cases {w w' : World α} (h : w.readBytes = .ok w') :
    w.threadData.writeCount ≠ w'.threadData.writeCount ∨ (w.hasBytes = false ∧ w' = w) := by
  obtain ⟨w₁, hwrite, rfl⟩ := Except.map_eq_ok.mp h
  obtain ⟨⟨fd, inp, bytes⟩, hdrain, rfl⟩ := Except.map_eq_ok.mp hwrite
  rcases drain_eq hdrain with ⟨hnone, rfl, rfl, rfl⟩ | ⟨n, -, rfl, rfl, rfl⟩
  · dsimp only
    rw [List.append_nil]
    rcases shutOwner_cases w with hcount | ⟨he, hfin, herr⟩
    · rw [hcount]
      exact .inl (count_ne _)
    · refine .inr ⟨?_, he⟩
      unfold hasBytes
      rw [hnone, hfin, herr]
      rfl
  · refine .inl ?_
    rcases shutOwner_cases _ with he | ⟨he, -⟩
    · rw [he, add_assoc]
      simp
    · rw [he]
      exact count_ne _

/-- Rule 3 does not block, and is allowed to write what there is. -/
theorem readBytes_total {w : World α} (hmoves : w.moves ≠ none)
    (hshut : w.threadShut = true → Reader.bytesBuffered w.tcp.inboundStream = 0) :
    ∃ w', w.readBytes = .ok w' := by
  obtain ⟨res, hres⟩ := drain_total hmoves hshut
  exact ⟨_, Except.map_eq_ok.mpr ⟨_, Except.map_eq_ok.mpr ⟨res, hres, rfl⟩, rfl⟩⟩

theorem sendQueued_outgoing {segs : List TCPSegment} {w w' : World α}
    (h : sendQueued A segs w = .ok w') : w'.outgoingSegments = [] := by
  induction segs generalizing w with
  | nil =>
    cases h
    rfl
  | cons seg segs ih =>
    unfold sendQueued at h
    split at h
    · cases h
    · exact ih h

/-- A rule that is served uses its descriptor, or loses interest. -/
theorem progress {w w' : World α} {r : FDRule (World α)}
    (hr : (r = rule2 ∧ w.wantsBytes = true ∧ w.Readable) ∨ r ∈ [rule1 A, rule3, rule4 A])
    (h : r.callback w = .ok w') : ¬ Stuck r w w' := by
  intro hstuck
  rcases hr with ⟨rfl, hwants, hread⟩ | hmem
  · obtain ⟨w₁, h1, h2⟩ := Except.bind_eq_ok.mp h
    obtain ⟨fd, out, taken, data, hfilled, rfl⟩ := readOwner_eq hread hwants h1
    obtain ⟨tcp, -, h3⟩ := Except.bind_eq_ok.mp h2
    obtain ⟨p, segs, rfl⟩ := collectSegments_frame h3
    exact count_ne _ (hstuck.1.trans hfilled.count)
  · simp only [List.mem_cons, List.not_mem_nil, or_false] at hmem
    rcases hmem with rfl | rfl | rfl
    · have hcount : w'.device.readCount = w.device.readCount + 1 := by
        change receiveSegment A w = .ok w' at h
        unfold receiveSegment at h
        split at h
        · cases h
        · dsimp only at h
          split at h
          · cases h
            rfl
          · split at h
            · cases h
            · obtain ⟨p, segs, rfl⟩ := collectSegments_frame h
              rfl
      exact count_ne _ (hstuck.1.trans hcount)
    · rcases readBytes_cases h with hcount | ⟨hidle, rfl⟩
      · exact hcount hstuck.1
      · have hi : hasBytes w' = true := hstuck.2.2
        rw [hidle] at hi
        cases hi
    · have hi : hasSegments w' = true := hstuck.2.2
      unfold hasSegments at hi
      rw [sendQueued_outgoing h] at hi
      cases hi

/-- **No busy wait.** Whatever the world is and whatever else `poll` answers, a
loop with the four rules, or those that are left of them, never reports one. -/
theorem wait_never_busy {loop : EventLoop (World α)} {answers : List Answer} {w : World α}
    (hsub : loop.fdRules.Sublist (rules A)) (hnon : loop.nonFdRules = [])
    (hk : Honest loop answers w) (what : String) :
    loop.waitNextEvent answers w ≠ .error (.busyWait what) := by
  intro h
  obtain ⟨r, left, w₂, w', hdue, hcall, hstuck⟩ := wait_busy hnon h
  rcases due_cases hsub hk hdue with ⟨rfl, rfl, hwants, hread⟩ | ⟨hmem, -⟩
  · exact progress (A := A) (.inl ⟨rfl, hwants, hread⟩) hcall hstuck
  · exact progress (.inr hmem) hcall hstuck

/-- A rule that is due, and where it is served. -/
def Called (w : World α) (r : FDRule (World α)) (w₂ : World α) : Prop :=
  (r = rule2 ∧ w₂ = w ∧ w.wantsBytes = true ∧ w.Readable) ∨
    (r ∈ [rule1 A, rule3, rule4 A] ∧ (w₂ = w ∨ w₂ = w.closeOutbound) ∧
      (r.handle = 2 → w.moves ≠ none))

theorem due_called {loop : EventLoop (World α)} {answers : List Answer} {w w₂ : World α}
    {r : FDRule (World α)} {left : List (FDRule (World α))}
    (hsub : loop.fdRules.Sublist (rules A)) (hk : Honest loop answers w)
    (hroom : Roomy loop answers w) (h : Due loop.fdRules answers w r left w₂) :
    Called (A := A) w r w₂ := by
  rcases due_cases hsub hk h with hdue | ⟨hmem, hw⟩
  · exact .inl hdue
  · refine .inr ⟨hmem, hw, fun hhandle => ?_⟩
    obtain ⟨hsplit, -, hpolled, -, -, -, -, hsaid, hready, -, -⟩ := h
    rename_i pre₀ post₀ pre post ks pollfds p w₀ w₁
    have hdir : r.direction = .Out := by
      simp only [List.mem_cons, List.not_mem_nil, or_false] at hmem
      rcases hmem with rfl | rfl | rfl
      · exact absurd hhandle (by decide : (0 : Nat) ≠ 2)
      · rfl
      · rfl
    rw [hdir] at hready
    have hmoves := hroom _ _ _ hpolled pre.length r p (by simp) hhandle hsaid hready
    rcases pass_cases (setUp_pass hpolled).1.handled fun x hx => hsub.subset hx with rfl | rfl
    · exact hmoves
    · exact hmoves

/-- If the closures that are due do not throw, and `getsockopt` works, a call
comes to its end. -/
theorem wait_total {loop : EventLoop (World α)} {answers : List Answer} {w : World α}
    (hsub : loop.fdRules.Sublist (rules A)) (hnon : loop.nonFdRules = [])
    (hk : Honest loop answers w) (hroom : Roomy loop answers w)
    (hopt : ∀ a ∈ answers, a.sockOpt = true)
    (hcall : ∀ r w₂, Called (A := A) w r w₂ → ∃ w', r.callback w₂ = .ok w') :
    ∃ out, loop.waitNextEvent answers w = .ok out := by
  cases hwait : loop.waitNextEvent answers w with
  | ok out => exact ⟨out, rfl⟩
  | error e =>
    exfalso
    rcases wait_error hnon hwait with ⟨r, hr, hb⟩ | ⟨r, left, w₂, hdue, hf⟩
    · obtain ⟨hrecover, hcancel⟩ := rule_trivial (hsub.subset hr)
      rcases hb with ⟨w₁, what, hthrow | hthrow, -⟩ | ⟨⟨a, ha, hno⟩, -⟩
      · rcases hcancel with rfl | ⟨-, hcancel⟩
        · cases hthrow
        · rw [hcancel] at hthrow
          cases hthrow
      · rw [hrecover] at hthrow
        cases hthrow
      · rw [hopt a ha] at hno
        cases hno
    · have hcalled := due_called hsub hk hroom hdue
      obtain ⟨w', hw'⟩ := hcall r w₂ hcalled
      rcases hf with ⟨what, hthrow, -⟩ | ⟨w'', hw'', hstuck⟩
      · rw [hthrow] at hw'
        cases hw'
      · refine progress (A := A) ?_ hw'' hstuck
        rcases hcalled with ⟨rfl, rfl, hwants, hread⟩ | ⟨hmem, -⟩
        · exact .inl ⟨rfl, hwants, hread⟩
        · exact .inr hmem

theorem round_never_busy {loop : EventLoop (World α)} {answers : List Answer} {w : World α}
    (hsub : loop.fdRules.Sublist (rules A)) (hnon : loop.nonFdRules = [])
    (hk : Honest loop answers w) {abort : Bool} {ms : Nat} (what : String) :
    round A abort answers ms loop w ≠ .error (.busyWait what) := by
  intro h
  unfold round at h
  cases hwait : loop.waitNextEvent answers w with
  | error e =>
    rw [hwait] at h
    cases h
    exact wait_never_busy hsub hnon hk what hwait
  | ok r =>
    obtain ⟨result, loop', w'⟩ := r
    rw [hwait] at h
    simp only [Except.bind] at h
    split at h
    · cases h
    · cases hticks : ticks A ms w' with
      | error e =>
        rw [hticks] at h
        cases h
      | ok w'' =>
        rw [hticks] at h
        cases h

/-- What one call does with the rules. -/
inductive Serves (w : World α) : World α → Prop
  | nothing : Serves w w
  | close : Serves w w.closeOutbound
  | push {w' : World α} : w.wantsBytes = true → w.Readable → w.pushBytes = .ok w' → Serves w w'
  | other {r : FDRule (World α)} {w₂ w' : World α} : r ∈ [rule1 A, rule3, rule4 A] →
      (w₂ = w ∨ w₂ = w.closeOutbound) → r.callback w₂ = .ok w' → Serves w w'

theorem wait_serves {loop loop' : EventLoop (World α)} {answers : List Answer}
    {w w' : World α} {res : Result} (hsub : loop.fdRules.Sublist (rules A))
    (hnon : loop.nonFdRules = []) (hk : Honest loop answers w)
    (h : loop.waitNextEvent answers w = .ok (res, loop', w')) :
    loop'.fdRules.Sublist (rules A) ∧ loop'.nonFdRules = [] ∧ Serves (A := A) w w' := by
  obtain ⟨-, -, hnon', -, ⟨-, -, r, -, hfirst, -⟩ | hpolled⟩ := wait_cases h
  · have hmem := hfirst.mem
    rw [hnon] at hmem
    cases hmem
  rw [hnon] at hnon'
  have hnil := List.sublist_nil.mp hnon'
  generalize hrules : loop'.fdRules = left at hpolled
  have hin : ∀ r ∈ loop.fdRules, r ∈ rules A := fun r hr => hsub.subset hr
  have hidle : ∀ w₁, w₁ = w ∨ w₁ = w.closeOutbound → Serves (A := A) w w₁ := by
    intro w₁ hw
    rcases hw with rfl | rfl
    · exact .nothing
    · exact .close
  cases hpolled with
  | exit hs _ =>
    have hpass := (setUp_pass hs).1
    exact ⟨hpass.sublist.trans hsub, hnil, hidle _ (pass_cases hpass.handled hin)⟩
  | timeout hs _ =>
    have hpass := (setUp_pass hs).1
    exact ⟨hpass.sublist.trans hsub, hnil, hidle _ (pass_cases hpass.handled hin)⟩
  | walked hs _ hwalk =>
    have hpass := (setUp_pass hs).1
    have hin' : ∀ r ∈ _, r ∈ rules A := fun r hr => hin r (hpass.sublist.subset hr)
    refine ⟨(hwalk.sublist.trans hpass.sublist).trans hsub, hnil, hidle _ ?_⟩
    rcases pass_cases hpass.handled hin with rfl | rfl
    · exact pass_cases hwalk.handled hin'
    · rcases pass_cases hwalk.handled hin' with rfl | rfl
      · exact .inr rfl
      · exact .inr rfl
  | served hdue hcall _ =>
    have hleft : left.Sublist loop.fdRules := by
      obtain ⟨hsplit, hl, hs, -, -, -, -, -, -, -, hwalk⟩ := hdue
      rw [hl]
      exact (hwalk.sublist.append_right _).trans (setUp_pass hs).1.sublist
    refine ⟨hleft.trans hsub, hnil, ?_⟩
    rcases due_cases hsub hk hdue with ⟨rfl, rfl, hwants, hread⟩ | ⟨hmem, hw⟩
    · exact .push hwants hread hcall
    · exact .other hmem hw hcall

end World
end StreamSocket.L2
