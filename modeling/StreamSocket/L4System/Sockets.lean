import StreamSocket.L2Machine.MinnowSocket
import StreamSocket.L4System.Progress
import StreamSocket.L4System.Wire

/-!
# Two TCPMinnowSockets: bytes from owner to owner

Two sockets on the medium of `Wire`, each with its event loop, its thread and
its owner. The owners write to and read from their ends of the socket pairs, or
shut them down; the threads run rounds of `_tcp_loop`. A round may get any
datagram that was ever written to a device, or one from elsewhere; and `poll` may
answer anything but that the socket pair is readable when it is not. All that a
run has to meet is in `Polite`.

Between the sockets and `Wire` stands the queue of outgoing segments: a segment
that `collect_segments` has taken is, for `Wire`, already on the medium, where
it may wait for any time. `Holds` says what one socket is to its peer in `Wire`.

* `Holds.collect`, `Holds.serves`, `Holds.round`: what a socket does in a round
  is a run of `Wire`.
* `sockets_refine`: each state that two sockets can reach is one of `Wire`, so
  what either owner gets is a prefix of what the other one wrote, byte by byte;
  and no round reports a busy wait, as long as `poll` is honest.
-/
namespace StreamSocket.L4.Sockets

open L1 L2 L3 TCPOverIPv4Adapter
open L3.PeerPair (Side ofApp)

abbrev Socket := World TCPOverIPv4Adapter

abbrev Loop := EventLoop Socket

/-- `idle`: neither `connect` nor `listen_and_accept` has been called;
`finished`: the thread has shut the socket down. -/
inductive Phase where
  | idle | running | finished
  deriving DecidableEq, Repr

/-- `wrote y` and `read y` are what the owner of `y` has written and read. -/
structure State where
  phase : Side → Phase
  loop : Side → Loop
  socket : Side → Socket
  wrote : Side → Bytes
  read : Side → Bytes

/-- What a read of the device gives: what `src` wrote `i`-th, or something from
elsewhere. -/
inductive Source where
  | sent (src : Side) (i : Nat)
  | foreign (bytes : Bytes)
  deriving DecidableEq, Repr

/-- `start` is the beginning of `connect` or `listen_and_accept`; `shutdown` is the
owner's `shutdown( SHUT_WR )`, the one kind that is modelled. -/
inductive Label where
  | start (y : Side)
  | write (y : Side) (data : Bytes)
  | shutdown (y : Side)
  | read (y : Side) (len : Nat)
  | round (y : Side) (abort : Bool) (answers : List Answer) (ms : Nat) (moves : Option Nat)
      (source : Source)
  deriving DecidableEq, Repr

def State.bytes (s : State) : Source → Option Bytes
  | .sent src i => (s.socket src).sent[i]?
  | .foreign bytes => some bytes

/-- The socket as the round finds it. -/
def State.faces (s : State) (y : Side) (moves : Option Nat) (bytes : Bytes) : Socket :=
  { s.socket y with moves := moves, incoming := bytes }

def State.setSocket (s : State) (y : Side) (x : Socket) : State :=
  { s with socket := Function.update s.socket y x }

/-- `none`: an exception, or something that cannot happen now. -/
def step (s : State) : Label → Option State
  | .start y =>
    if s.phase y = .idle then
      let s' := { s with phase := Function.update s.phase y .running }
      if (s.socket y).datagramAdapter.listening then some s'
      else (s.socket y).connect.toOption.map fun x => s'.setSocket y x
    else none
  | .write y data =>
    if (s.socket y).ownerShut ∨ s.phase y = .finished then none
    else some { s.setSocket y { s.socket y with toThread := (s.socket y).toThread ++ data } with
      wrote := Function.update s.wrote y (s.wrote y ++ data) }
  | .shutdown y => some (s.setSocket y { s.socket y with ownerShut := true })
  | .read y len =>
    some { s.setSocket y { s.socket y with toOwner := (s.socket y).toOwner.drop len } with
      read := Function.update s.read y (s.read y ++ (s.socket y).toOwner.take len) }
  | .round y abort answers ms moves source =>
    if s.phase y = .running then
      (s.bytes source).bind fun bytes =>
        (World.round .tunFd abort answers ms (s.loop y) (s.faces y moves bytes)).toOption.map
          fun (more, loop, x) =>
            { s.setSocket y x with
              phase := Function.update s.phase y (if more then .running else .finished)
              loop := Function.update s.loop y loop }
    else none

/-- mirrors src/util/tcp_minnow_socket.cc:57-71, 240-242, 276-279 -/
def socket (cfg : TCPConfig) (isn : Wrap32) (adapter : TCPOverIPv4Adapter) : Socket :=
  { threadData := { fd := 3, nonBlocking := true }
    device := { fd := 4 }
    datagramAdapter := adapter
    tcp := .new cfg isn }

def start (cfg : Side → TCPConfig) (isn : Side → Wrap32) (adapter : Side → TCPOverIPv4Adapter)
    (loop : Loop) : State where
  phase := fun _ => .idle
  loop := fun _ => loop
  socket := fun y => socket (cfg y) (isn y) (adapter y)
  wrote := fun _ => []
  read := fun _ => []

def machine : LTS State Label :=
  LTS.ofFn (fun s => ∃ cfg isn adapter loop, (∀ y, (cfg y).sendCapacity < 2 ^ 64 ∧
    (cfg y).recvCapacity < 2 ^ 63) ∧ Wire.Wired adapter ∧
    World.initializeTCP Adapter.tunFd = .ok loop ∧ s = start cfg isn adapter loop) step

/-- What holds of a label in a run: fewer than `2^31` bytes in each direction;
`listen_and_accept` keeps its owner from writing; `poll` calls the socket pair
readable only if it is; and datagrams from elsewhere hold no segment for this
connection. -/
structure Polite (s : State) (l : Label) (s' : State) : Prop where
  short : ∀ y, (s'.wrote y).length < 2 ^ 31
  write : ∀ y data, l = .write y data → (s.socket y).datagramAdapter.listening = false
  shutdown : ∀ y, l = .shutdown y → (s.socket y).datagramAdapter.listening = false
  honest : ∀ y abort answers ms moves source bytes,
    l = .round y abort answers ms moves source → s.bytes source = some bytes →
      World.Honest (s.loop y) answers (s.faces y moves bytes)
  foreign : ∀ y abort answers ms moves bytes,
    l = .round y abort answers ms moves (.foreign bytes) →
      ((s.socket y).datagramAdapter.read bytes).map Prod.fst = some none

/-! ## Runs of the wire -/

/-- A run of `Wire` in which only `y` does something. -/
structure Goes (y : Side) (w w' : Wire.State) : Prop where
  run : ∃ ls, (Wire.machine.restrict Wire.Passive).Run w ls w'
  peer : w'.peer y.other = w.peer y.other
  got : w'.got y.other = w.got y.other
  adapter : w'.adapter y.other = w.adapter y.other
  wire : w'.wire y.other = w.wire y.other
  grown : w.wire y ⊆ w'.wire y

theorem Goes.refl (y : Side) (w : Wire.State) : Goes y w w :=
  ⟨⟨[], .nil w⟩, rfl, rfl, rfl, rfl, List.Subset.refl _⟩

theorem Goes.trans {y : Side} {w w' w'' : Wire.State} (h : Goes y w w') (h' : Goes y w' w'') :
    Goes y w w'' := by
  obtain ⟨ls, hrun⟩ := h.run
  obtain ⟨ls', hrun'⟩ := h'.run
  exact ⟨⟨ls ++ ls', hrun.append hrun'⟩, h'.peer.trans h.peer, h'.got.trans h.got,
    h'.adapter.trans h.adapter, h'.wire.trans h.wire, List.Subset.trans h.grown h'.grown⟩

theorem Goes.keeps {y : Side} {w w' : Wire.State} (h : Goes y w w') {bytes : Bytes}
    (hb : ∃ src, bytes ∈ w.wire src) : ∃ src, bytes ∈ w'.wire src := by
  obtain ⟨src, hsrc⟩ := hb
  refine ⟨src, ?_⟩
  rcases y.eq_or_other src with rfl | rfl
  · exact h.grown hsrc
  · rw [h.wire]
    exact hsrc

abbrev Reach (w : Wire.State) : Prop := (Wire.machine.restrict Wire.Passive).Reachable w

theorem Goes.reach {y : Side} {w w' : Wire.State} (h : Goes y w w') (hr : Reach w) : Reach w' := by
  obtain ⟨w₀, ls₀, hi, hrun₀⟩ := hr
  obtain ⟨ls, hrun⟩ := h.run
  exact ⟨w₀, ls₀ ++ ls, hi, hrun₀.append hrun⟩

/-- What is known of a peer of the wire. -/
theorem Reach.peer {w : Wire.State} (hr : Reach w) (y : Side) :
    PeerRun.Inv (w.peer y) ∧ (w.peer y).written.length < 2 ^ 31 := by
  obtain ⟨n, hn, h⟩ := Wire.inductive_refines.reachable w hr
  have hi := Network.inductive_inv.reachable n hn
  rw [h.peer]
  exact ⟨hi.peer y, hi.short y⟩

section

variable {y : Side} {w : Wire.State} {q : PeerRun.State}

/-- One step of `y`. -/
theorem goes_one {l : Wire.Label} {w' : Wire.State} (hr : Reach w) (hs : Wire.step w l = some w')
    (hpeer : w'.peer y.other = w.peer y.other) (hgot : w'.got y.other = w.got y.other)
    (hadapter : w'.adapter y.other = w.adapter y.other)
    (hwire : w'.wire y.other = w.wire y.other) (hgrown : w.wire y ⊆ w'.wire y)
    (hw : (w'.peer y).written.length < 2 ^ 31)
    (hl : ∀ z, l = .app z .push → (w.adapter z).listening = false) : Goes y w w' := by
  refine ⟨⟨[l], .cons ⟨hs, fun z => ?_, hl⟩ (.nil _)⟩, hpeer, hgot, hadapter, hwire, hgrown⟩
  rcases y.eq_or_other z with rfl | rfl
  · exact hw
  · rw [hpeer]
    exact (hr.peer _).2

/-- The wire after a step of the application of `y`. -/
def did (w : Wire.State) (y : Side) (q : PeerRun.State) : Wire.State :=
  { w.setPeer y q with
    got := Function.update w.got y (w.got y ++ Network.taken (w.peer y).peer q.peer) }

@[simp] theorem did_peer : (did w y q).peer y = q := Function.update_self ..

@[simp] theorem did_got :
    (did w y q).got y = w.got y ++ Network.taken (w.peer y).peer q.peer := Function.update_self ..

theorem goes_app {l : PeerRun.Label} (hr : Reach w) (ha : ofApp l = true)
    (hs : PeerRun.step (w.peer y) l = some q) (hw : q.written.length < 2 ^ 31)
    (hl : l = .push → (w.adapter y).listening = false) :
    Goes y w (did w y q) := by
  refine goes_one hr (l := .app y l) ?_ ?_ ?_ rfl rfl (List.Subset.refl _) ?_ ?_
  · simp only [Wire.step, if_pos ha, hs, Option.map_some]
    rfl
  · exact Function.update_of_ne y.other_ne ..
  · exact Function.update_of_ne y.other_ne ..
  · rw [did_peer]
    exact hw
  · intro z hz
    cases hz
    exact hl rfl

/-- `maybe_send` is called, and what it returns is on the medium. -/
theorem goes_send (hr : Reach w) (hs : PeerRun.step (w.peer y) .maybeSend = some q)
    (hw : q.written.length < 2 ^ 31) : ∃ w', Goes y w w' ∧ w'.peer y = q ∧ w'.got = w.got ∧
      w'.adapter = w.adapter ∧ ∀ seg, q.returned.getD none = some seg →
        ∃ bytes ∈ w'.wire y, (w.adapter y).write seg = some bytes := by
  cases hret : q.returned.getD none with
  | none =>
    refine ⟨w.setPeer y q, ?_, Function.update_self .., rfl, rfl, by simp⟩
    refine goes_one hr (l := .send y) ?_ ?_ rfl rfl rfl (List.Subset.refl _) ?_ (by simp)
    · simp only [Wire.step, hs, Option.bind_some, hret]
    · exact Function.update_of_ne y.other_ne ..
    · simpa only [Wire.State.setPeer, Function.update_self] using hw
  | some seg =>
    obtain ⟨h, -, -, hwrite⟩ := (w.adapter y).write_eq seg
    refine ⟨{ w.setPeer y q with
      wire := Function.update w.wire y (w.wire y ++
        [h.bytes ++ ((w.adapter y).wrapped seg).bytes]) }, ?_,
      Function.update_self .., rfl, rfl, fun x hx => ?_⟩
    · refine goes_one hr (l := .send y) ?_ ?_ rfl rfl ?_ ?_ ?_ (by simp)
      · simp only [Wire.step, hs, Option.bind_some, hret, hwrite, Option.map_some]
      · exact Function.update_of_ne y.other_ne ..
      · exact Function.update_of_ne y.other_ne ..
      · show w.wire y ⊆ Function.update w.wire y _ y
        rw [Function.update_self]
        exact List.subset_append_left _ _
      · simpa only [Wire.State.setPeer, Function.update_self] using hw
    · cases hx
      refine ⟨_, ?_, hwrite⟩
      simp

/-- A segment that is on the medium arrives. -/
theorem goes_receive (hr : Reach w) {src : Side} {bytes : Bytes} (hb : bytes ∈ w.wire src)
    {seg : TCPSegment} {a : TCPOverIPv4Adapter}
    (hread : (w.adapter y).read bytes = some (some seg, a))
    (hs : PeerRun.step (w.peer y) (.receive seg) = some q) (hw : q.written.length < 2 ^ 31) :
    Goes y w ((w.setAdapter y a).setPeer y q) := by
  obtain ⟨i, hi⟩ := List.mem_iff_getElem?.mp hb
  refine goes_one hr (l := .receive y src i) ?_ ?_ rfl ?_ rfl (List.Subset.refl _) ?_ (by simp)
  · show ((w.wire src)[i]?).bind (w.read y) = _
    rw [hi, Option.bind_some, Wire.State.read, hread, Option.bind_some]
    dsimp only
    rw [hs, Option.map_some]
  · exact Function.update_of_ne y.other_ne ..
  · exact Function.update_of_ne y.other_ne ..
  · simpa only [Wire.State.setPeer, Function.update_self] using hw

/-- A datagram without a segment for this connection arrives. -/
theorem goes_ignore (hr : Reach w) {bytes : Bytes} {a : TCPOverIPv4Adapter}
    (hread : (w.adapter y).read bytes = some (none, a)) : Goes y w w := by
  have ha := read_none hread
  subst ha
  have hs : Wire.step w (.foreign y bytes) = some w := by
    simp only [Wire.step, hread, Wire.State.setAdapter, Function.update_eq_self]
  exact goes_one hr hs rfl rfl rfl rfl (List.Subset.refl _) (hr.peer y).2 (by simp)

/-! ## What the steps of a peer leave -/

theorem written_of_step {p : PeerRun.State} {l : PeerRun.Label} (hs : PeerRun.step p l = some q)
    (hl : ∀ data, l ≠ .write data) : q.written = p.written := by
  cases PeerRun.step_cases hs with
  | write data => exact absurd rfl (hl data)
  | _ => rfl

theorem closed_of_step {p : PeerRun.State} {l : PeerRun.Label} (hi : PeerRun.Inv p)
    (hs : PeerRun.step p l = some q) (hl : l ≠ .close) :
    Writer.isClosed q.peer.outboundStream = Writer.isClosed p.peer.outboundStream := by
  cases PeerRun.step_cases hs with
  | close => exact absurd rfl hl
  | push hx _ => exact (Network.push_kept hi.log hi.out hx).2
  | receive hp =>
    rcases TCPPeer.receive_cases hp with ⟨-, rfl⟩ | ⟨t, r, inbound, -, -, rfl⟩
    · rfl
    · rfl
  | maybeSend hp _ =>
    obtain ⟨p₁, h1, rfl, -⟩ := TCPPeer.maybeSend_cases hp
    rcases TCPPeer.pushIfAlive_cases h1 with ⟨-, rfl⟩ | ⟨x', b', -, hx, rfl⟩
    · rfl
    · exact (Network.push_kept hi.log hi.out hx).2
  | _ => rfl

theorem inbound_of_step {p : PeerRun.State} {l : PeerRun.Label}
    (hs : PeerRun.step p l = some q) (ha : ofApp l = true) (hl : ∀ len, l ≠ .read len) :
    q.peer.inboundStream = p.peer.inboundStream := by
  cases PeerRun.step_cases hs with
  | read len => exact absurd rfl (hl len)
  | receive _ => cases ha
  | maybeSend _ _ => cases ha
  | _ => rfl

/-- What `maybe_send` leaves fits in memory. -/
theorem maybeSend_step {p : PeerRun.State} (hi : PeerRun.Inv p) (hw : p.written.length < 2 ^ 31)
    {p' : TCPPeer} {seg : Option TCPSegment} (h : p.peer.maybeSend = .ok (p', seg)) :
    ∃ q, PeerRun.step p .maybeSend = some q ∧ q.peer = p' ∧ q.returned = some seg := by
  obtain ⟨p₁, ms, h1, hp⟩ := Network.exists_pushIfAlive hi hw
  have hmem : PeerRun.InMemory p' := by
    obtain ⟨p₂, h2, rfl, -⟩ := TCPPeer.maybeSend_cases h
    rw [h1] at h2
    cases h2
    unfold PeerRun.InMemory
    rw [(PeerRun.maybeSend_frame p₁.sender).1]
    exact hp.memory
  refine ⟨{ p.pushed p' with returned := some seg }, ?_, rfl, rfl⟩
  simp only [PeerRun.step, h, Except.toOption, Option.bind_some, if_pos hmem]

theorem push_step {p : PeerRun.State} (hi : PeerRun.Inv p) (hw : p.written.length < 2 ^ 31)
    {p' : TCPPeer} (h : p.peer.push = .ok p') :
    ∃ q, PeerRun.step p .push = some q ∧ q.peer = p' := by
  obtain ⟨x', b', ms, h1, hp⟩ := Network.exists_push hi hw
  have he : p' = { p.peer with sender := x', outboundStream := b' } := by
    unfold TCPPeer.push at h
    rw [h1] at h
    cases h
    rfl
  refine ⟨p.pushed p', ?_, rfl⟩
  have hmem : PeerRun.InMemory p' := by
    rw [he]
    exact hp.memory
  simp only [PeerRun.step, h, Except.toOption, Option.bind_some, if_pos hmem]

/-- The loop of `collect_segments` is a run of the wire. -/
theorem collect_goes {fuel : Nat} {p' : TCPPeer} {segs : List TCPSegment} (hr : Reach w)
    (h : World.collect fuel (w.peer y).peer = .ok (p', segs)) :
    ∃ w', Goes y w w' ∧ (w'.peer y).peer = p' ∧ (w'.peer y).written = (w.peer y).written ∧
      Writer.isClosed p'.outboundStream = Writer.isClosed (w.peer y).peer.outboundStream ∧
      w'.got = w.got ∧ w'.adapter = w.adapter ∧
      ∀ seg ∈ segs, ∃ bytes ∈ w'.wire y, (w.adapter y).write seg = some bytes := by
  induction fuel generalizing w p' segs with
  | zero => cases h
  | succ fuel ih =>
    obtain ⟨⟨p₁, sent⟩, hsend, h⟩ := Except.bind_eq_ok.mp h
    obtain ⟨hi, hw⟩ := hr.peer y
    obtain ⟨q, hq, rfl, hret⟩ := maybeSend_step hi hw hsend
    have hwritten := written_of_step hq (by simp)
    have hclosed := closed_of_step hi hq (by simp)
    obtain ⟨w₁, hgo, hpeer, hgot, hadapter, hwire⟩ := goes_send hr hq (by rw [hwritten]; exact hw)
    rw [hret, Option.getD_some] at hwire
    cases sent with
    | none =>
      cases h
      exact ⟨w₁, hgo, by rw [hpeer], by rw [hpeer, hwritten], hclosed, hgot, hadapter, by simp⟩
    | some seg =>
      obtain ⟨⟨p₂, rest⟩, hrest, he⟩ := Except.map_eq_ok.mp h
      cases he
      rw [← hpeer] at hrest
      obtain ⟨w₂, hgo₂, h1, h2, h3, h4, h5, h6⟩ := ih (hgo.reach hr) hrest
      refine ⟨w₂, hgo.trans hgo₂, h1, by rw [h2, hpeer, hwritten], ?_, h4.trans hgot,
        h5.trans hadapter, fun x hx => ?_⟩
      · rw [h3, hpeer, hclosed]
      · rcases List.mem_cons.mp hx with rfl | hx
        · obtain ⟨bytes, hb, he⟩ := hwire x rfl
          exact ⟨bytes, hgo₂.grown hb, he⟩
        · rw [← hadapter]
          exact h6 x hx

end

/-! ## One socket -/

/-- Who listens has written nothing. -/
theorem Reach.quiet {w : Wire.State} (hr : Reach w) {y : Side}
    (hl : (w.adapter y).listening = true) : w.wire y = [] := by
  obtain ⟨n, -, h⟩ := Wire.inductive_refines.reachable w hr
  cases y with
  | left =>
    rw [h.wired.here] at hl
    cases hl
  | right =>
    have hw := h.wire .right
    rw [(h.quiet hl).2] at hw
    exact List.forall₂_nil_right_iff.mp hw

/-- An adapter that is connected stays as it is. -/
theorem read_connected {a a' : TCPOverIPv4Adapter} {bytes : Bytes} {seg : Option TCPSegment}
    (hl : a.listening = false) (h : a.read bytes = some (seg, a')) : a' = a := by
  unfold TCPOverIPv4Adapter.read TCPOverIPv4Adapter.unwrapBuffers at h
  obtain ⟨o, -, h⟩ := Option.bind_eq_some_iff.mp h
  cases o with
  | none =>
    cases h
    rfl
  | some d => exact (L3.ConnectionLatch.unwrap_connected hl h).1

/-- The socket `x` of `y` and the peer in `w` agree; what the socket has
collected, `w` has sent. -/
structure Holds (w : Wire.State) (y : Side) (x : Socket) (wrote read : Bytes) : Prop where
  tcp : (w.peer y).peer = x.tcp
  got : w.got y = read ++ x.toOwner
  adapter : w.adapter y = x.datagramAdapter
  sent : x.sent ⊆ w.wire y
  outgoing : ∀ seg ∈ x.outgoingSegments,
    ∃ bytes ∈ w.wire y, x.datagramAdapter.write seg = some bytes
  /-- No byte is lost, doubled or made up on the way to the peer. -/
  written : (w.peer y).written ++ x.toThread = wrote
  shut : x.outboundShutdown = false → Writer.isClosed x.tcp.outboundStream = false
  /-- The owner is in `listen_and_accept`. -/
  waits : x.datagramAdapter.listening = true → x.toThread = [] ∧ x.ownerShut = false

/-- The socket can go on from `x` to `x'`. -/
def Follows (w : Wire.State) (y : Side) (x' : Socket) (wrote read : Bytes) : Prop :=
  ∃ w', Goes y w w' ∧ Reach w' ∧ Holds w' y x' wrote read

section

variable {y : Side} {w : Wire.State} {x x' : Socket} {wrote read : Bytes}

/-- What `y` does leaves the other socket alone. -/
theorem Holds.other {w' : Wire.State} (h : Holds w y.other x wrote read) (hg : Goes y w w') :
    Holds w' y.other x wrote read where
  tcp := by rw [hg.peer]; exact h.tcp
  got := by rw [hg.got]; exact h.got
  adapter := by rw [hg.adapter]; exact h.adapter
  sent := by rw [hg.wire]; exact h.sent
  outgoing := by rw [hg.wire]; exact h.outgoing
  written := by rw [hg.peer]; exact h.written
  shut := h.shut
  waits := h.waits

theorem Follows.trans {w' : Wire.State} (hg : Goes y w w')
    (h : Follows w' y x' wrote read) : Follows w y x' wrote read := by
  obtain ⟨w'', hg', hr, hh⟩ := h
  exact ⟨w'', hg.trans hg', hr, hh⟩

/-- A step of the peer that neither reads nor writes. -/
theorem Holds.local (h : Holds w y x wrote read) (hr : Reach w) {l : PeerRun.Label}
    {q : PeerRun.State} (shut : Bool) (hs : PeerRun.step (w.peer y) l = some q)
    (ha : ofApp l = true) (hwrite : ∀ data, l ≠ .write data) (hread : ∀ len, l ≠ .read len)
    (hpush : l = .push → x.datagramAdapter.listening = false)
    (hshut : shut = false → x.outboundShutdown = false ∧ l ≠ .close) :
    Follows w y { x with tcp := q.peer, outboundShutdown := shut } wrote read := by
  obtain ⟨hi, hw⟩ := hr.peer y
  have hwritten := written_of_step hs hwrite
  have hgo := goes_app hr ha hs (by rw [hwritten]; exact hw) fun hl => by
    rw [h.adapter]
    exact hpush hl
  have htaken := Network.taken_eq_nil (inbound_of_step hs ha hread)
  refine ⟨_, hgo, hgo.reach hr, ?_, ?_, h.adapter, h.sent, h.outgoing, ?_, fun hb => ?_, h.waits⟩
  · rw [did_peer]
  · rw [did_got, htaken, List.append_nil]
    exact h.got
  · rw [did_peer, hwritten]
    exact h.written
  · obtain ⟨hopen, hl⟩ := hshut hb
    rw [closed_of_step hi hs hl, h.tcp]
    exact h.shut hopen

/-- Rule 2 is cancelled. -/
theorem Holds.close (h : Holds w y x wrote read) (hr : Reach w) :
    Follows w y x.closeOutbound wrote read := by
  have hstep : PeerRun.step (w.peer y) .close = some { w.peer y with
      peer := { (w.peer y).peer with
        outboundStream := Writer.close (w.peer y).peer.outboundStream }
      returned := none } := rfl
  have hf := h.local hr true hstep rfl (by simp) (by simp) (by simp) (by simp)
  rw [h.tcp] at hf
  exact hf

/-- The segments that are collected are on the medium. -/
theorem Holds.collect (h : Holds w y x wrote read) (hr : Reach w)
    (hc : x.collectSegments = .ok x') : Follows w y x' wrote read := by
  obtain ⟨⟨p, segs⟩, hcollect, rfl⟩ := Except.map_eq_ok.mp hc
  rw [← h.tcp] at hcollect
  obtain ⟨w', hgo, hpeer, hwritten, hclosed, hgot, hadapter, hsegs⟩ := collect_goes hr hcollect
  refine ⟨w', hgo, hgo.reach hr, hpeer, by rw [hgot]; exact h.got,
    by rw [hadapter]; exact h.adapter, List.Subset.trans h.sent hgo.grown, fun seg hseg => ?_,
    by rw [hwritten]; exact h.written, fun hb => ?_, h.waits⟩
  · rcases List.mem_append.mp hseg with hseg | hseg
    · obtain ⟨bytes, hb, he⟩ := h.outgoing seg hseg
      exact ⟨bytes, hgo.grown hb, he⟩
    · show ∃ bytes ∈ w'.wire y, x.datagramAdapter.write seg = some bytes
      rw [← h.adapter]
      exact hsegs seg hseg
  · rw [hclosed, h.tcp]
    exact h.shut hb

theorem Follows.collect (hf : Follows w y x wrote read) (hc : x.collectSegments = .ok x') :
    Follows w y x' wrote read := by
  obtain ⟨w₁, hgo, hr, h⟩ := hf
  exact .trans hgo (h.collect hr hc)

/-- `push`, on an end that does not listen. -/
theorem Follows.push (hf : Follows w y x wrote read)
    (hl : x.datagramAdapter.listening = false) {tcp : TCPPeer} (hp : x.tcp.push = .ok tcp) :
    Follows w y { x with tcp := tcp } wrote read := by
  obtain ⟨w₁, hgo, hr, h⟩ := hf
  obtain ⟨hi, hw⟩ := hr.peer y
  rw [← h.tcp] at hp
  obtain ⟨q, hq, rfl⟩ := push_step hi hw hp
  exact .trans hgo (h.local hr x.outboundShutdown hq rfl (by simp) (by simp) (fun _ => hl)
    fun hb => ⟨hb, by simp⟩)

/-- Rule 2 reads what the owner wrote, and the peer takes all of it. -/
theorem Holds.readOwner (h : Holds w y x wrote read) (hr : Reach w)
    (hshort : wrote.length < 2 ^ 31) (hwants : x.wantsBytes = true) (hread : x.Readable)
    (hs : x.readOwner = .ok x') : Follows w y x' wrote read ∧
      x'.datagramAdapter = x.datagramAdapter := by
  obtain ⟨fd, out, taken, data, hfilled, rfl⟩ := World.readOwner_eq hread hwants hs
  obtain rfl := hfilled.stream
  have hopen : Writer.isClosed x.tcp.outboundStream = false := by
    apply h.shut
    unfold World.wantsBytes at hwants
    simp only [Bool.and_eq_true, Bool.not_eq_true'] at hwants
    exact hwants.1.2
  have hwritten := h.written
  rw [hfilled.split, ← List.append_assoc] at hwritten
  have hlen : (w.peer y).written.length + data.length < 2 ^ 31 := by
    have := congrArg List.length hwritten
    rw [List.length_append, List.length_append] at this
    omega
  have htake : data.take (Writer.availableCapacity x.tcp.outboundStream) = data :=
    List.take_of_length_le hfilled.fits
  obtain ⟨q, hstep, hpeer, hq⟩ : ∃ q, PeerRun.step (w.peer y) (.write data) = some q ∧
      q.peer = { x.tcp with outboundStream := Writer.push x.tcp.outboundStream data } ∧
      q.written = (w.peer y).written ++ data := by
    refine ⟨{ w.peer y with
      peer := { x.tcp with outboundStream := Writer.push x.tcp.outboundStream data }
      written := (w.peer y).written ++ data
      returned := none }, ?_, rfl, rfl⟩
    simp only [PeerRun.step, h.tcp, hopen, Bool.false_eq_true, if_false, htake]
  have hgo := goes_app hr rfl hstep (by rw [hq, List.length_append]; exact hlen) (by simp)
  have htaken := Network.taken_eq_nil (inbound_of_step hstep rfl (by simp))
  have hone : Holds (did w y q) y { x with
      threadData := fd
      toThread := x.toThread.drop taken
      tcp := { x.tcp with outboundStream := Writer.push x.tcp.outboundStream data } }
      wrote read := by
    refine ⟨by rw [did_peer, hpeer], ?_, h.adapter, h.sent, h.outgoing, ?_, fun _ => hopen,
      fun hl => ?_⟩
    · rw [did_got, htaken, List.append_nil]
      exact h.got
    · rw [did_peer, hq]
      exact hwritten
    · obtain ⟨hnil, hno⟩ := h.waits hl
      have hshut := hread.2.resolve_left fun hne => hne hnil
      rw [hno] at hshut
      cases hshut
  refine ⟨?_, rfl⟩
  cases he : fd.eof with
  | false =>
    rw [Bool.or_false]
    exact ⟨_, hgo, hgo.reach hr, hone⟩
  | true =>
    rw [Bool.or_true]
    exact .trans hgo (hone.close (hgo.reach hr))

/-- Who listens has an owner that has not written yet. -/
theorem Holds.connected (h : Holds w y x wrote read) (hread : x.Readable) :
    x.datagramAdapter.listening = false := by
  by_contra hl
  obtain ⟨hnil, hno⟩ := h.waits (Bool.not_eq_false _ ▸ hl)
  have hshut := hread.2.resolve_left fun hne => hne hnil
  rw [hno] at hshut
  cases hshut

theorem Holds.pushBytes (h : Holds w y x wrote read) (hr : Reach w)
    (hshort : wrote.length < 2 ^ 31) (hwants : x.wantsBytes = true) (hread : x.Readable)
    (hs : x.pushBytes = .ok x') : Follows w y x' wrote read := by
  obtain ⟨x₁, h1, h2⟩ := Except.bind_eq_ok.mp hs
  obtain ⟨tcp, h3, h4⟩ := Except.bind_eq_ok.mp h2
  obtain ⟨hf, hadapter⟩ := h.readOwner hr hshort hwants hread h1
  refine (hf.push ?_ h3).collect h4
  rw [hadapter]
  exact h.connected hread

/-- A segment from the medium is given to the peer. -/
theorem Holds.receive (h : Holds w y x wrote read) (hr : Reach w) {src : Side}
    (hsrc : x.incoming ∈ w.wire src) {seg : TCPSegment} {a : TCPOverIPv4Adapter} {tcp : TCPPeer}
    (hread : x.datagramAdapter.read x.incoming = some (some seg, a))
    (htcp : x.tcp.receive seg = some tcp) (device : FileDescriptor) :
    Follows w y { x with datagramAdapter := a, device := device, tcp := tcp } wrote read := by
  have hquiet : x.datagramAdapter.listening = true → x.outgoingSegments = [] := by
    intro hl
    rw [← h.adapter] at hl
    refine List.eq_nil_iff_forall_not_mem.mpr fun seg hseg => ?_
    obtain ⟨bytes, hb, -⟩ := h.outgoing seg hseg
    rw [hr.quiet hl] at hb
    cases hb
  have hkeep : x.datagramAdapter.listening = false → a = x.datagramAdapter :=
    fun hl => read_connected hl hread
  obtain ⟨hi, hw⟩ := hr.peer y
  rw [← h.tcp] at htcp
  have hstep : PeerRun.step (w.peer y) (.receive seg) = some ((w.peer y).received tcp) := by
    simp only [PeerRun.step, htcp, Option.map_some]
  have hread' : (w.adapter y).read x.incoming = some (some seg, a) := by
    rw [h.adapter]
    exact hread
  have hgo := goes_receive hr hsrc hread' hstep (by
    rw [written_of_step hstep (by simp)]
    exact hw)
  refine ⟨_, hgo, hgo.reach hr, ?_, h.got, ?_, h.sent, fun seg hseg => ?_, ?_, fun hb => ?_,
    fun hl => ?_⟩
  · simp only [Wire.State.setPeer, Function.update_self]
    rfl
  · simp only [Wire.State.setPeer, Wire.State.setAdapter, Function.update_self]
  · cases hl : x.datagramAdapter.listening with
    | false =>
      rw [hkeep hl]
      exact h.outgoing seg hseg
    | true =>
      change seg ∈ x.outgoingSegments at hseg
      rw [hquiet hl] at hseg
      cases hseg
  · simp only [Wire.State.setPeer, Function.update_self]
    exact h.written
  · have hc := closed_of_step hi hstep (by simp)
    rw [h.tcp] at hc
    exact hc.trans (h.shut hb)
  · refine h.waits ?_
    by_contra hn
    have ha := hkeep (Bool.eq_false_of_not_eq_true hn)
    rw [ha] at hl
    exact hn hl

/-- Rule 1: what the device has is on the medium, or holds no segment. -/
theorem Holds.receiveSegment (h : Holds w y x wrote read) (hr : Reach w)
    (hin : (∃ src, x.incoming ∈ w.wire src) ∨
      (x.datagramAdapter.read x.incoming).map Prod.fst = some none)
    (hs : World.receiveSegment .tunFd x = .ok x') : Follows w y x' wrote read := by
  unfold World.receiveSegment at hs
  split at hs
  · cases hs
  rename_i seg frames a hread
  obtain ⟨⟨seg', a'⟩, hread, he⟩ := Option.map_eq_some_iff.mp hread
  cases he
  dsimp only [World.used] at hs
  rw [List.append_nil] at hs
  cases seg with
  | none =>
    cases hs
    have ha := read_none hread
    subst ha
    exact ⟨w, goes_ignore hr (by rw [h.adapter]; exact hread), hr, h.tcp, h.got, h.adapter,
      h.sent, h.outgoing, h.written, h.shut, h.waits⟩
  | some seg =>
    dsimp only at hs
    split at hs
    · cases hs
    rename_i tcp htcp
    rcases hin with ⟨src, hsrc⟩ | hno
    · exact (h.receive hr hsrc hread htcp _).collect hs
    · rw [hread] at hno
      cases hno

/-- Shutting down the owner's end is nothing to the peer. -/
theorem Holds.shutOwner (h : Holds w y x wrote read) : Holds w y x.shutOwner wrote read := by
  unfold World.shutOwner
  split
  · exact ⟨h.tcp, h.got, h.adapter, h.sent, h.outgoing, h.written, h.shut, h.waits⟩
  · exact h

/-- Rule 3: the owner gets what the peer pops. -/
theorem Holds.readBytes (h : Holds w y x wrote read) (hr : Reach w)
    (hs : x.readBytes = .ok x') : Follows w y x' wrote read := by
  obtain ⟨x₁, hwrite, rfl⟩ := Except.map_eq_ok.mp hs
  obtain ⟨⟨fd, inp, bytes⟩, hdrain, rfl⟩ := Except.map_eq_ok.mp hwrite
  rcases FileDescriptor.drain_eq hdrain with ⟨-, rfl, rfl, rfl⟩ | ⟨n, hle, -, rfl, rfl⟩
  · dsimp only
    rw [List.append_nil]
    exact ⟨w, .refl y w, hr, h.shutOwner⟩
  · obtain ⟨q, hstep, hpeer, hq⟩ : ∃ q, PeerRun.step (w.peer y) (.read n) = some q ∧
        q.peer = { x.tcp with inboundStream := Reader.pop x.tcp.inboundStream n } ∧
        q.written = (w.peer y).written := by
      refine ⟨{ w.peer y with
        peer := { (w.peer y).peer with
          inboundStream := Reader.pop (w.peer y).peer.inboundStream n }
        returned := none }, rfl, ?_, rfl⟩
      rw [h.tcp]
    obtain ⟨hi, hw⟩ := hr.peer y
    have hgo := goes_app hr rfl hstep (by rw [hq]; exact hw) (by simp)
    have htaken : Network.taken (w.peer y).peer q.peer = x.tcp.inboundStream.stream.take n := by
      unfold Network.taken
      rw [hpeer, h.tcp, ByteStream.pop_eq hle]
      dsimp only
      rw [List.length_drop]
      congr 1
      omega
    refine ⟨_, hgo, hgo.reach hr, Holds.shutOwner ⟨by rw [did_peer, hpeer], ?_, h.adapter, h.sent,
      h.outgoing, by rw [did_peer, hq]; exact h.written, h.shut, h.waits⟩⟩
    rw [did_got, htaken, h.got, List.append_assoc]

theorem tunFd_write (a : TCPOverIPv4Adapter) (seg : TCPSegment) :
    Adapter.tunFd.write a seg = (a.write seg).map fun bytes => ([bytes], a) := by
  unfold Adapter.tunFd TCPOverIPv4Adapter.write
  dsimp only
  rw [Option.map_bind]
  congr 1
  funext ⟨d, _⟩
  show _ = Option.map _ (Option.map _ _)
  rw [Option.map_map]
  rfl

/-- Rule 4: what is written to the device was on the medium already. -/
theorem Holds.sendQueued {segs : List TCPSegment} (h : Holds w y x wrote read)
    (hsegs : ∀ seg ∈ segs, ∃ bytes ∈ w.wire y, x.datagramAdapter.write seg = some bytes)
    (hs : World.sendQueued .tunFd segs x = .ok x') : Holds w y x' wrote read := by
  induction segs generalizing x with
  | nil =>
    cases hs
    exact ⟨h.tcp, h.got, h.adapter, h.sent, by simp, h.written, h.shut, h.waits⟩
  | cons seg segs ih =>
    obtain ⟨bytes, hb, hwrite⟩ := hsegs seg List.mem_cons_self
    unfold World.sendQueued at hs
    rw [tunFd_write, hwrite, Option.map_some] at hs
    have hsent : x.sent ++ [bytes] ⊆ w.wire y := List.append_subset.mpr ⟨h.sent, by simpa using hb⟩
    have hone : Holds w y (x.used x.datagramAdapter [bytes]) wrote read :=
      ⟨h.tcp, h.got, h.adapter, hsent, h.outgoing, h.written, h.shut, h.waits⟩
    exact ih hone (fun x hx => hsegs x (List.mem_cons_of_mem _ hx)) hs

theorem Holds.tick (h : Holds w y x wrote read) (hr : Reach w) (ms : Nat) :
    Follows w y { x with tcp := x.tcp.tick ms } wrote read := by
  have hstep : PeerRun.step (w.peer y) (.tick ms) =
      some { w.peer y with peer := (w.peer y).peer.tick ms, returned := none } := rfl
  have hf := h.local hr x.outboundShutdown hstep rfl (by simp) (by simp) (by simp)
    fun hb => ⟨hb, by simp⟩
  rw [h.tcp] at hf
  exact hf

/-- A tick of the peer, and what it makes of it; the adapter has no clock. -/
theorem Holds.ticks (h : Holds w y x wrote read) (hr : Reach w) {ms : Nat}
    (hs : World.ticks .tunFd ms x = .ok x') : Follows w y x' wrote read := by
  unfold World.ticks at hs
  split at hs
  · obtain ⟨x₁, hcollect, hs⟩ := Except.bind_eq_ok.mp hs
    obtain ⟨w₁, hgo, hr₁, h₁⟩ := (h.tick hr ms).collect hcollect
    cases hs
    exact ⟨w₁, hgo, hr₁, h₁.tcp, h₁.got, h₁.adapter, by
      show x₁.sent ++ [] ⊆ _
      rw [List.append_nil]
      exact h₁.sent, h₁.outgoing, h₁.written, h₁.shut, h₁.waits⟩
  · cases hs
    exact ⟨w, .refl y w, hr, h⟩

/-- The beginning of `connect`. -/
theorem Holds.connect (h : Holds w y x wrote read) (hr : Reach w)
    (hl : x.datagramAdapter.listening = false) (hs : x.connect = .ok x') :
    Follows w y x' wrote read := by
  obtain ⟨tcp, hp, hs⟩ := Except.bind_eq_ok.mp hs
  obtain ⟨x₁, hc, hs⟩ := Except.bind_eq_ok.mp hs
  have hf : Follows w y x wrote read := ⟨w, .refl y w, hr, h⟩
  split at hs
  · cases hs
  · cases hs
    exact (hf.push hl hp).collect hc

/-! ## A round -/

/-- What the event loop does in one call. -/
theorem Holds.serves (h : Holds w y x wrote read) (hr : Reach w) (hshort : wrote.length < 2 ^ 31)
    (hin : (∃ src, x.incoming ∈ w.wire src) ∨
      (x.datagramAdapter.read x.incoming).map Prod.fst = some none)
    (hs : World.Serves (A := .tunFd) x x') : Follows w y x' wrote read := by
  cases hs with
  | nothing => exact ⟨w, .refl y w, hr, h⟩
  | close => exact h.close hr
  | push hwants hread hs => exact h.pushBytes hr hshort hwants hread hs
  | @other r x₂ _ hr' hx hs =>
    have hrule : ∀ {w₁ : Wire.State} {x₁ : Socket}, Reach w₁ → Holds w₁ y x₁ wrote read →
        ((∃ src, x₁.incoming ∈ w₁.wire src) ∨
          (x₁.datagramAdapter.read x₁.incoming).map Prod.fst = some none) →
        r.callback x₁ = .ok x' → Follows w₁ y x' wrote read := by
      intro w₁ x₁ hr₁ h₁ hin₁ hcall
      simp only [List.mem_cons, List.not_mem_nil, or_false] at hr'
      rcases hr' with rfl | rfl | rfl
      · exact h₁.receiveSegment hr₁ hin₁ hcall
      · exact h₁.readBytes hr₁ hcall
      · exact ⟨w₁, .refl y w₁, hr₁, h₁.sendQueued h₁.outgoing hcall⟩
    rcases hx with rfl | rfl
    · exact hrule hr h hin hs
    · obtain ⟨w₁, hgo, hr₁, h₁⟩ := h.close hr
      exact .trans hgo (hrule hr₁ h₁ (hin.imp_left hgo.keeps) hs)

theorem Holds.round (h : Holds w y x wrote read) (hr : Reach w) (hshort : wrote.length < 2 ^ 31)
    (hin : (∃ src, x.incoming ∈ w.wire src) ∨
      (x.datagramAdapter.read x.incoming).map Prod.fst = some none)
    {loop loop' : Loop} (hsub : loop.fdRules.Sublist (World.rules .tunFd))
    (hnon : loop.nonFdRules = []) {answers : List Answer} (hk : World.Honest loop answers x)
    {abort more : Bool} {ms : Nat}
    (hs : World.round .tunFd abort answers ms loop x = .ok (more, loop', x')) :
    (loop'.fdRules.Sublist (World.rules .tunFd) ∧ loop'.nonFdRules = []) ∧
      Follows w y x' wrote read := by
  obtain ⟨⟨result, loop₁, x₁⟩, hwait, hs⟩ := Except.bind_eq_ok.mp hs
  obtain ⟨hsub', hnon', hserves⟩ := World.wait_serves hsub hnon hk hwait
  have hf := h.serves hr hshort hin hserves
  dsimp only at hs
  split at hs
  · cases hs
    exact ⟨⟨hsub', hnon'⟩, hf⟩
  · obtain ⟨x₂, hticks, he⟩ := Except.map_eq_ok.mp hs
    cases he
    obtain ⟨w₁, hgo, hr₁, h₁⟩ := hf
    exact ⟨⟨hsub', hnon'⟩, .trans hgo (h₁.ticks hr₁ (EventLoop.liftThrow_eq_ok hticks))⟩

end

/-! ## Both sockets -/

/-- Each socket agrees with its peer in `w`, and its loop has no rules but the
four. -/
structure Refines (s : State) (w : Wire.State) : Prop where
  holds : ∀ y, Holds w y (s.socket y) (s.wrote y) (s.read y)
  rules : ∀ y, (s.loop y).fdRules.Sublist (World.rules .tunFd) ∧ (s.loop y).nonFdRules = []

/-- A step of `y` leaves what the other side has. -/
theorem Refines.follow {s s' : State} {w : Wire.State} {y : Side} (h : Refines s w)
    (hx : Follows w y (s'.socket y) (s'.wrote y) (s'.read y))
    (hloop : (s'.loop y).fdRules.Sublist (World.rules .tunFd) ∧ (s'.loop y).nonFdRules = [])
    (hsocket : s'.socket y.other = s.socket y.other) (hwrote : s'.wrote y.other = s.wrote y.other)
    (hread : s'.read y.other = s.read y.other) (hloops : s'.loop y.other = s.loop y.other) :
    ∃ w', Reach w' ∧ Refines s' w' := by
  obtain ⟨w', hgo, hr, hh⟩ := hx
  refine ⟨w', hr, fun z => ?_, fun z => ?_⟩
  · rcases y.eq_or_other z with rfl | rfl
    · exact hh
    · rw [hsocket, hwrote, hread]
      exact (h.holds _).other hgo
  · rcases y.eq_or_other z with rfl | rfl
    · exact hloop
    · rw [hloops]
      exact h.rules _

theorem Holds.faces {s : State} {w : Wire.State} {y : Side}
    (h : Holds w y (s.socket y) (s.wrote y) (s.read y)) (moves : Option Nat) (bytes : Bytes) :
    Holds w y (s.faces y moves bytes) (s.wrote y) (s.read y) :=
  ⟨h.tcp, h.got, h.adapter, h.sent, h.outgoing, h.written, h.shut, h.waits⟩

/-- What is read is on the medium, or holds no segment. -/
theorem Refines.arrives {s : State} {w : Wire.State} (h : Refines s w) {y : Side}
    {source : Source} {bytes : Bytes} (hb : s.bytes source = some bytes)
    (hforeign : ∀ b, source = .foreign b →
      ((s.socket y).datagramAdapter.read b).map Prod.fst = some none) :
    (∃ src, bytes ∈ w.wire src) ∨
      ((s.socket y).datagramAdapter.read bytes).map Prod.fst = some none := by
  cases source with
  | sent src i => exact .inl ⟨src, (h.holds src).sent (List.mem_of_getElem? hb)⟩
  | foreign b =>
    cases hb
    exact .inr (hforeign _ rfl)

theorem Refines.start {s s' : State} {w : Wire.State} (h : Refines s w) (hr : Reach w) {y : Side}
    (hs : step s (.start y) = some s') : ∃ w', Reach w' ∧ Refines s' w' := by
  simp only [Sockets.step] at hs
  split at hs
  · split at hs
    · cases hs
      exact ⟨w, hr, h.holds, h.rules⟩
    · rename_i hl
      obtain ⟨x, hx, rfl⟩ := Except.toOption_map_eq_some.mp hs
      refine h.follow (y := y) ?_ (h.rules y) ?_ rfl rfl rfl
      · simp only [State.setSocket, Function.update_self]
        exact (h.holds y).connect hr (Bool.eq_false_of_not_eq_true hl) hx
      · exact Function.update_of_ne y.other_ne ..
  · cases hs

theorem Refines.write {s s' : State} {w : Wire.State} (h : Refines s w) (hr : Reach w) {y : Side}
    {data : Bytes} (hl : (s.socket y).datagramAdapter.listening = false)
    (hs : step s (.write y data) = some s') : ∃ w', Reach w' ∧ Refines s' w' := by
  simp only [Sockets.step] at hs
  split at hs
  · cases hs
  · cases hs
    have hh := h.holds y
    refine h.follow (y := y) ⟨w, .refl y w, hr, ?_⟩ (h.rules y) ?_ ?_ rfl rfl
    · simp only [State.setSocket, Function.update_self]
      refine ⟨hh.tcp, hh.got, hh.adapter, hh.sent, hh.outgoing, ?_, hh.shut, fun hl' => ?_⟩
      · rw [← hh.written, List.append_assoc]
      · rw [hl] at hl'
        cases hl'
    · exact Function.update_of_ne y.other_ne ..
    · exact Function.update_of_ne y.other_ne ..

theorem Refines.shutdown {s s' : State} {w : Wire.State} (h : Refines s w) (hr : Reach w)
    {y : Side} (hl : (s.socket y).datagramAdapter.listening = false)
    (hs : step s (.shutdown y) = some s') : ∃ w', Reach w' ∧ Refines s' w' := by
  cases hs
  have hh := h.holds y
  refine h.follow (y := y) ⟨w, .refl y w, hr, ?_⟩ (h.rules y) ?_ rfl rfl rfl
  · simp only [State.setSocket, Function.update_self]
    refine ⟨hh.tcp, hh.got, hh.adapter, hh.sent, hh.outgoing, hh.written, hh.shut, fun hl' => ?_⟩
    rw [hl] at hl'
    cases hl'
  · exact Function.update_of_ne y.other_ne ..

theorem Refines.read {s s' : State} {w : Wire.State} (h : Refines s w) (hr : Reach w) {y : Side}
    {len : Nat} (hs : step s (.read y len) = some s') : ∃ w', Reach w' ∧ Refines s' w' := by
  cases hs
  have hh := h.holds y
  refine h.follow (y := y) ⟨w, .refl y w, hr, ?_⟩ (h.rules y) ?_ rfl ?_ rfl
  · simp only [State.setSocket, Function.update_self]
    refine ⟨hh.tcp, ?_, hh.adapter, hh.sent, hh.outgoing, hh.written, hh.shut, hh.waits⟩
    rw [List.append_assoc, List.take_append_drop]
    exact hh.got
  · exact Function.update_of_ne y.other_ne ..
  · exact Function.update_of_ne y.other_ne ..

theorem Refines.round {s s' : State} {w : Wire.State} (h : Refines s w) (hr : Reach w) {y : Side}
    {abort : Bool} {answers : List Answer} {ms : Nat} {moves : Option Nat} {source : Source}
    (hp : Polite s (.round y abort answers ms moves source) s')
    (hs : step s (.round y abort answers ms moves source) = some s') :
    ∃ w', Reach w' ∧ Refines s' w' := by
  have hshort := hp.short y
  simp only [Sockets.step] at hs
  split at hs
  · obtain ⟨bytes, hb, hs⟩ := Option.bind_eq_some_iff.mp hs
    obtain ⟨⟨more, loop', x'⟩, hround, rfl⟩ := Except.toOption_map_eq_some.mp hs
    have hh := (h.holds y).faces moves bytes
    obtain ⟨hsub, hnon⟩ := h.rules y
    obtain ⟨hloop, hf⟩ := hh.round hr hshort
      (h.arrives hb fun b he => hp.foreign y abort answers ms moves b (he ▸ rfl)) hsub hnon
      (hp.honest y abort answers ms moves source bytes rfl hb) hround
    refine h.follow (y := y) ?_ ?_ ?_ rfl rfl ?_
    · simp only [State.setSocket, Function.update_self]
      exact hf
    · simp only [Function.update_self]
      exact hloop
    · exact Function.update_of_ne y.other_ne ..
    · exact Function.update_of_ne y.other_ne ..
  · cases hs

theorem Refines.step {s s' : State} {w : Wire.State} {l : Label} (h : Refines s w) (hr : Reach w)
    (hp : Polite s l s') (hs : Sockets.step s l = some s') : ∃ w', Reach w' ∧ Refines s' w' := by
  cases l with
  | start y => exact h.start hr hs
  | write y data => exact h.write hr (hp.write y data rfl) hs
  | shutdown y => exact h.shutdown hr (hp.shutdown y rfl) hs
  | read y len => exact h.read hr hs
  | round y abort answers ms moves source => exact h.round hr hp hs

theorem inductive_refines : (machine.restrict Polite).Inductive fun s =>
    ∃ w, Reach w ∧ Refines s w := by
  refine .restrict ?_ fun s l s' h hp hs => ?_
  · intro s hinit
    obtain ⟨cfg, isn, adapter, loop, hc, hw, hloop, rfl⟩ := hinit
    rw [World.initializeTCP_eq] at hloop
    cases hloop
    refine ⟨Wire.start cfg isn adapter, ⟨_, [], ⟨cfg, isn, adapter, hc, hw, rfl⟩, .nil _⟩,
      fun y => ?_, fun y => ⟨List.Sublist.refl _, rfl⟩⟩
    exact ⟨rfl, rfl, rfl, List.nil_subset _, by simp [start, socket], rfl, fun _ => rfl,
      fun _ => ⟨rfl, rfl⟩⟩
  · obtain ⟨w, hr, h⟩ := h
    exact h.step hr hp hs

/-! ## What the owners get -/

/-- What holds of the owner of `y`, and of the loop that serves it. -/
structure Safe (s : State) (y : Side) : Prop where
  /-- The bytes that the owner has read, that wait for it in the socket pair and
  that the peer has assembled are the first ones of those that the thread of the
  other side has taken from its owner. -/
  bytes : ∃ taken, s.wrote y.other = taken ++ (s.socket y.other).toThread ∧
    s.read y ++ (s.socket y).toOwner ++ (s.socket y).tcp.inboundStream.stream <+: taken
  calm : ∀ abort answers ms moves bytes what,
    World.Honest (s.loop y) answers (s.faces y moves bytes) →
      World.round .tunFd abort answers ms (s.loop y) (s.faces y moves bytes) ≠
        .error (.busyWait what)

theorem Refines.safe {s : State} {w : Wire.State} (h : Refines s w) (hr : Reach w) (y : Side) :
    Safe s y := by
  refine ⟨⟨(w.peer y.other).written, (h.holds y.other).written.symm, ?_⟩, ?_⟩
  · obtain ⟨n, hn, hwn⟩ := Wire.inductive_refines.reachable w hr
    have hsafe := (hwn.safe (Network.inductive_inv.reachable n hn) y).bytes
    rw [(h.holds y).got, (h.holds y).tcp] at hsafe
    exact hsafe
  · intro abort answers ms moves bytes what hk
    obtain ⟨hsub, hnon⟩ := h.rules y
    exact World.round_never_busy hsub hnon hk what

/-- **The sockets refine the wire.** Whatever the threads, the owners, `poll` and
the medium do within `Polite`: each state is one in which two peers on a wire have
done the work, so each owner gets a prefix of what the other one wrote, through
both socket pairs and both streams; and no loop reports a busy wait if `poll` is
honest. -/
theorem sockets_refine (s : State) (hr : (machine.restrict Polite).Reachable s) :
    (∃ w, (Wire.machine.restrict Wire.Passive).Reachable w ∧ Refines s w) ∧ ∀ y, Safe s y := by
  obtain ⟨w, hw, h⟩ := inductive_refines.reachable s hr
  exact ⟨⟨w, hw, h⟩, fun y => h.safe hw y⟩

/-- What the kernel and the medium are asked for in a round. -/
instance decidableRound (s : State) (y : Side) (moves : Option Nat) (answers : List Answer)
    (source : Source) : Decidable (∀ bytes, s.bytes source = some bytes →
      World.Honest (s.loop y) answers (s.faces y moves bytes)) :=
  match h : s.bytes source with
  | none => .isTrue fun _ hb => nomatch hb
  | some bytes => decidable_of_iff (World.Honest (s.loop y) answers (s.faces y moves bytes))
      ⟨fun hk _ hb => by cases hb; exact hk, fun hall => hall bytes rfl⟩

instance decidableForeign (s : State) (y : Side) (source : Source) :
    Decidable (∀ b, source = .foreign b →
      ((s.socket y).datagramAdapter.read b).map Prod.fst = some none) :=
  match source with
  | .sent .. => .isTrue nofun
  | .foreign b =>
    decidable_of_iff (((s.socket y).datagramAdapter.read b).map Prod.fst = some none)
      ⟨fun h _ he => by cases he; exact h, fun h => h b rfl⟩

instance (s : State) (l : Label) (s' : State) : Decidable (Polite s l s') :=
  match l with
  | .start _ | .read .. =>
    decidable_of_iff (∀ y, (s'.wrote y).length < 2 ^ 31)
      ⟨fun h => ⟨h, nofun, nofun, nofun, nofun⟩, (·.short)⟩
  | .write y data =>
    decidable_of_iff ((∀ y, (s'.wrote y).length < 2 ^ 31) ∧
        (s.socket y).datagramAdapter.listening = false)
      ⟨fun h => ⟨h.1, fun _ _ he => by cases he; exact h.2, nofun, nofun, nofun⟩,
        fun h => ⟨h.short, h.write y data rfl⟩⟩
  | .shutdown y =>
    decidable_of_iff ((∀ y, (s'.wrote y).length < 2 ^ 31) ∧
        (s.socket y).datagramAdapter.listening = false)
      ⟨fun h => ⟨h.1, nofun, fun _ he => by cases he; exact h.2, nofun, nofun⟩,
        fun h => ⟨h.short, h.shutdown y rfl⟩⟩
  | .round y abort answers ms moves source =>
    decidable_of_iff ((∀ y, (s'.wrote y).length < 2 ^ 31) ∧
        (∀ bytes, s.bytes source = some bytes →
          World.Honest (s.loop y) answers (s.faces y moves bytes)) ∧
        (∀ b, source = .foreign b →
          ((s.socket y).datagramAdapter.read b).map Prod.fst = some none))
      ⟨fun h => ⟨h.1, nofun, nofun,
        fun _ _ _ _ _ _ bytes he hb => by cases he; exact h.2.1 bytes hb,
        fun _ _ _ _ _ bytes he => by cases he; exact h.2.2 bytes rfl⟩,
      fun h => ⟨h.short, fun bytes hb => h.honest y abort answers ms moves source bytes rfl hb,
        fun b he => h.foreign y abort answers ms moves b (by rw [he])⟩⟩

/-- `poll` says `event` of the rule in the `k`-th place. -/
def said (k : Nat) (event : UInt16) : List Answer :=
  List.replicate k ({} : Answer) ++ [{ revents := event }]

def sending (y : Side) : Label := .round y false (said 3 POLLOUT) 1 none (.foreign [])

def hearing (y : Side) (i : Nat) : Label :=
  .round y false (said 0 POLLIN) 1 none (.sent y.other i)

/-- A connection is made, and a byte goes from owner to owner. -/
def calling : List Label :=
  [.start .left, .start .right, sending .left, hearing .right 0, sending .right, hearing .left 0,
    .write .left [97, 98], .round .left false (said 1 POLLIN) 1 (some 0) (.foreign []),
    sending .left, hearing .right 1, hearing .right 2,
    .round .right false (said 2 POLLOUT) 1 (some 0) (.foreign []), .read .right 5]

theorem sockets_refine_call : ∃ s, (machine.restrict Polite).Run
    (start (fun _ => Network.smallConfig) (fun _ => ⟨0⟩) Wire.ends (World.initialLoop .tunFd))
    calling s ∧ s.read .right = [97] ∧
    ((∃ w, (Wire.machine.restrict Wire.Passive).Reachable w ∧ Refines s w) ∧ ∀ y, Safe s y) := by
  have hrun : (LTS.exec (fun s l => (step s l).filter fun s' => decide (Polite s l s'))
      (start (fun _ => Network.smallConfig) (fun _ => ⟨0⟩) Wire.ends (World.initialLoop .tunFd))
      calling).map (fun s => s.read .right) = some [97] := by decide +kernel
  obtain ⟨s, hs, he⟩ := Option.map_eq_some_iff.mp hrun
  have hsteps := LTS.run_of_filter (M := machine.restrict Polite) (fun _ _ _ h hc => ⟨h, hc⟩) hs
  have hinit : (machine.restrict Polite).init
      (start (fun _ => Network.smallConfig) (fun _ => ⟨0⟩) Wire.ends
        (World.initialLoop .tunFd)) :=
    ⟨_, _, _, _, fun _ => ⟨by decide, by decide⟩, ⟨rfl, by decide, .inr ⟨rfl, rfl, rfl⟩⟩,
      World.initializeTCP_eq _, rfl⟩
  exact ⟨s, hsteps, he, sockets_refine s ⟨_, _, hinit, hsteps⟩⟩

end StreamSocket.L4.Sockets
