import StreamSocket.L4System.Sockets

/-!
# The rounds of a socket come to their end

`Sockets` says what a round leaves when it returns. Here: it returns. No closure
of a rule throws, `collect_segments` and the event loop end, and `connect`
passes its own check.

* `slack`: what a peer can still send if nothing new happens; each segment that
  `maybe_send` returns takes from it (`maybeSend_slack`), so `collect_total`.
* `rounds_succeed`: in every state that two sockets can reach, a round or the
  beginning of `connect` succeeds. One round may fail: a thread that has shut
  its end of the socket pair must not get more bytes for its owner.
-/
namespace StreamSocket.L4.Sockets

open L1 L2 L3 TCPOverIPv4Adapter
open L3.PeerPair (Side ofApp)

/-! ## The loop of collect_segments -/

/-- An upper bound on the messages that a sender can still return: those that
are queued, and those that the SYN, the bytes and the FIN can make. -/
def pending (x : TCPSender) (b : ByteStream) : Nat :=
  x.sendMessages.length + b.stream.length + (!x.syn).toNat + (!x.fin).toNat

/-- And an empty message, if a reply is due. -/
def slack (p : TCPPeer) : Nat := pending p.sender p.outboundStream + p.needSend.toNat

/-- Making a message uses up what it is made of. -/
theorem pending_emits {x x' : TCPSender} {b b' : ByteStream} {m : TCPSenderMessage}
    (h : TCPSender.Emits x b m x' b') : pending x' b' ≤ pending x b := by
  have hqueue := congrArg List.length h.queued
  have hstream := congrArg List.length h.stream
  have hpos := h.pos
  rw [List.length_append, List.length_singleton] at hqueue
  rw [List.length_append] at hstream
  unfold TCPSenderMessage.sequenceLength at hpos
  unfold pending
  rw [h.syn, h.fin, hqueue, hstream]
  rw [h.SYN] at hpos
  cases hsyn : x.syn with
  | false => cases x.fin <;> cases m.FIN <;> simp <;> omega
  | true =>
    rw [hsyn] at hpos
    rw [h.unsealed hsyn]
    cases hfin : m.FIN with
    | true => simp; omega
    | false =>
      rw [hfin] at hpos
      simp at hpos ⊢
      omega

theorem pending_run {a d : TCPSender × ByteStream} {ms : List TCPSenderMessage}
    (h : TCPSender.creation.Run a ms d) : pending d.1 d.2 ≤ pending a.1 a.2 := by
  induction h with
  | nil => exact Nat.le_refl _
  | cons hs _ ih => exact Nat.le_trans ih (pending_emits hs)

theorem pushIfAlive_slack {p : PeerRun.State} (hi : PeerRun.Inv p) {p₁ : TCPPeer}
    (h : p.peer.pushIfAlive = .ok p₁) : slack p₁ ≤ slack p.peer := by
  rcases TCPPeer.pushIfAlive_cases h with ⟨-, rfl⟩ | ⟨x', b', -, hpush, rfl⟩
  · exact Nat.le_refl _
  · obtain ⟨x₁, b₁, ms, h1, hrun, -⟩ := hi.log.push hi.out
    rw [h1] at hpush
    cases hpush
    exact Nat.add_le_add_right (pending_run hrun) _

/-- A segment that is returned is one less. -/
theorem maybeSend_slack {p : PeerRun.State} (hi : PeerRun.Inv p) {p' : TCPPeer}
    {seg : TCPSegment} (h : p.peer.maybeSend = .ok (p', some seg)) :
    slack p' < slack p.peer := by
  obtain ⟨p₁, h1, rfl, hseg⟩ := TCPPeer.maybeSend_cases h
  refine Nat.lt_of_lt_of_le ?_ (pushIfAlive_slack hi h1)
  unfold slack pending
  rcases hseg with ⟨m, hm, -⟩ | ⟨hm, hneed, -⟩ | ⟨-, -, -, he⟩
  · unfold TCPSender.maybeSend at hm ⊢
    cases hq : p₁.sender.sendMessages with
    | nil =>
      rw [hq] at hm
      cases hm
    | cons x xs =>
      simp only [List.length_cons, Bool.toNat_false]
      omega
  · unfold TCPSender.maybeSend at hm ⊢
    cases hq : p₁.sender.sendMessages with
    | nil =>
      simp only [hneed, hq, List.length_nil, Bool.toNat_true, Bool.toNat_false]
      omega
    | cons x xs =>
      rw [hq] at hm
      cases hm

/-- The loop of `collect_segments` ends. -/
theorem collect_total {p : PeerRun.State} (hi : PeerRun.Inv p) (hw : p.written.length < 2 ^ 31)
    {fuel : Nat} (h : slack p.peer < fuel) : ∃ out, World.collect fuel p.peer = .ok out := by
  induction fuel generalizing p with
  | zero => exact absurd h (Nat.not_lt_zero _)
  | succ fuel ih =>
    obtain ⟨p₁, ms, h1, -⟩ := Network.exists_pushIfAlive hi hw
    have hsend := Network.maybeSend_eq h1
    generalize hp : ({ p₁ with sender := p₁.sender.maybeSend.1, needSend := false } : TCPPeer) = p'
      at hsend
    generalize Option.map _ _ = sent at hsend
    unfold World.collect
    rw [hsend]
    cases sent with
    | none => exact ⟨_, rfl⟩
    | some seg =>
      obtain ⟨q, hq, rfl, -⟩ := maybeSend_step hi hw hsend
      have hless := maybeSend_slack hi hsend
      obtain ⟨out, hout⟩ := ih (hi.step hq) (by rw [written_of_step hq (by simp)]; exact hw)
        (by omega)
      refine ⟨(out.1, seg :: out.2), ?_⟩
      show (World.collect fuel q.peer).map _ = _
      rw [hout]
      rfl

theorem slack_lt (p : TCPPeer) :
    slack p < p.sender.sendMessages.length + p.outboundStream.stream.length + 4 := by
  have h1 := Bool.toNat_le (!p.sender.syn)
  have h2 := Bool.toNat_le (!p.sender.fin)
  have h3 := Bool.toNat_le p.needSend
  unfold slack pending
  omega

/-! ## No closure throws -/

section

variable {y : Side} {w : Wire.State} {x x' : Socket} {wrote read : Bytes}

theorem Holds.collects (h : Holds w y x wrote read) (hr : Reach w) :
    ∃ x', x.collectSegments = .ok x' := by
  obtain ⟨hi, hw⟩ := hr.peer y
  obtain ⟨out, hout⟩ := collect_total hi hw (slack_lt (w.peer y).peer)
  rw [h.tcp] at hout
  exact ⟨_, Except.map_eq_ok.mpr ⟨out, hout, rfl⟩⟩

theorem Follows.collects (hf : Follows w y x wrote read) : ∃ x', x.collectSegments = .ok x' := by
  obtain ⟨w', -, hr, h⟩ := hf
  exact h.collects hr

/-- `push` and `collect_segments`, on an end that does not listen. -/
theorem Follows.pushes (hf : Follows w y x wrote read)
    (hl : x.datagramAdapter.listening = false) : ∃ tcp, x.tcp.push = .ok tcp ∧
      Follows w y { x with tcp := tcp } wrote read ∧
      ∃ x', World.collectSegments { x with tcp := tcp } = .ok x' := by
  obtain ⟨tcp, hpush⟩ : ∃ tcp, x.tcp.push = .ok tcp := by
    obtain ⟨w₁, -, hr, h⟩ := hf
    obtain ⟨hi, hw⟩ := hr.peer y
    obtain ⟨x', b', ms, hx, -⟩ := Network.exists_push hi hw
    rw [h.tcp] at hx
    exact ⟨_, Except.map_eq_ok.mpr ⟨_, hx, rfl⟩⟩
  have hpushed := hf.push hl hpush
  exact ⟨tcp, hpush, hpushed, hpushed.collects⟩

/-- What is on the medium makes neither the adapter nor the peer fail. -/
theorem Reach.reads {bytes : Bytes} {src : Side} (hr : Reach w) (hsrc : bytes ∈ w.wire src) :
    ∃ seg a, (w.adapter y).read bytes = some (seg, a) ∧
      ∀ seg', seg = some seg' → ∃ tcp, (w.peer y).peer.receive seg' = some tcp := by
  obtain ⟨n, hn, hwn⟩ := Wire.inductive_refines.reachable w hr
  obtain ⟨i, hi⟩ := List.mem_iff_getElem?.mp hsrc
  have hlt := (List.getElem?_eq_some_iff.mp hi).1
  obtain ⟨w', hw'⟩ := (hwn.safe (Network.inductive_inv.reachable n hn) y).reads src i hlt
  change ((w.wire src)[i]?).bind (w.read y) = some w' at hw'
  rw [hi, Option.bind_some, Wire.State.read] at hw'
  obtain ⟨⟨seg, a⟩, hread, hw'⟩ := Option.bind_eq_some_iff.mp hw'
  refine ⟨seg, a, hread, fun seg' he => ?_⟩
  subst he
  obtain ⟨q, hq, -⟩ := Option.map_eq_some_iff.mp hw'
  simp only [PeerRun.step] at hq
  obtain ⟨tcp, htcp, -⟩ := Option.map_eq_some_iff.mp hq
  exact ⟨tcp, htcp⟩

/-- Rule 1. -/
theorem Holds.receives (h : Holds w y x wrote read) (hr : Reach w)
    (hin : (∃ src, x.incoming ∈ w.wire src) ∨
      (x.datagramAdapter.read x.incoming).map Prod.fst = some none) :
    ∃ x', World.receiveSegment .tunFd x = .ok x' := by
  unfold World.receiveSegment Adapter.tunFd
  dsimp only
  rcases hin with ⟨src, hsrc⟩ | hno
  · obtain ⟨seg, a, hread, hseg⟩ := hr.reads (y := y) hsrc
    rw [h.adapter] at hread
    rw [hread]
    cases seg with
    | none => exact ⟨_, rfl⟩
    | some seg =>
      obtain ⟨tcp, htcp⟩ := hseg seg rfl
      rw [h.tcp] at htcp
      dsimp only [Option.map_some, World.used]
      rw [htcp, List.append_nil]
      exact (h.receive hr hsrc hread htcp _).collects
  · obtain ⟨⟨seg, a⟩, hread, rfl⟩ := Option.map_eq_some_iff.mp hno
    rw [hread]
    exact ⟨_, rfl⟩

/-- Rule 2. -/
theorem Holds.pushesBytes (h : Holds w y x wrote read) (hr : Reach w)
    (hshort : wrote.length < 2 ^ 31) (hwants : x.wantsBytes = true) (hread : x.Readable) :
    ∃ x', x.pushBytes = .ok x' := by
  obtain ⟨x₁, hx₁⟩ := World.readOwner_total hread hwants
  obtain ⟨hf, hadapter⟩ := h.readOwner hr hshort hwants hread hx₁
  obtain ⟨tcp, hpush, -, x₂, hcollect⟩ := hf.pushes (by rw [hadapter]; exact h.connected hread)
  exact ⟨x₂, Except.bind_eq_ok.mpr ⟨x₁, hx₁, Except.bind_eq_ok.mpr ⟨tcp, hpush, hcollect⟩⟩⟩

/-- Rule 4. -/
theorem sends_total (segs : List TCPSegment) (x : Socket) :
    ∃ x', World.sendQueued .tunFd segs x = .ok x' := by
  induction segs generalizing x with
  | nil => exact ⟨_, rfl⟩
  | cons seg segs ih =>
    obtain ⟨h, -, -, hwrite⟩ := x.datagramAdapter.write_eq seg
    unfold World.sendQueued
    rw [tunFd_write, hwrite]
    exact ih _

theorem Holds.ticked (h : Holds w y x wrote read) (hr : Reach w) (ms : Nat) :
    ∃ x', World.ticks .tunFd ms x = .ok x' := by
  unfold World.ticks
  split
  · obtain ⟨x₁, hx₁⟩ := (h.tick hr ms).collects
    exact ⟨_, Except.bind_eq_ok.mpr ⟨x₁, hx₁, rfl⟩⟩
  · exact ⟨_, rfl⟩

/-! ## A round -/

/-- Whatever rule is due. -/
theorem Holds.serves_total (h : Holds w y x wrote read) (hr : Reach w)
    (hshort : wrote.length < 2 ^ 31)
    (hin : (∃ src, x.incoming ∈ w.wire src) ∨
      (x.datagramAdapter.read x.incoming).map Prod.fst = some none)
    (hshut : x.threadShut = true → Reader.bytesBuffered x.tcp.inboundStream = 0)
    {r : FDRule Socket} {x₂ : Socket} (hcalled : World.Called (A := .tunFd) x r x₂) :
    ∃ x', r.callback x₂ = .ok x' := by
  rcases hcalled with ⟨rfl, rfl, hwants, hread⟩ | ⟨hmem, hx, hmoves⟩
  · exact h.pushesBytes hr hshort hwants hread
  · simp only [List.mem_cons, List.not_mem_nil, or_false] at hmem
    rcases hmem with rfl | rfl | rfl
    · show ∃ x', World.receiveSegment .tunFd x₂ = .ok x'
      rcases hx with rfl | rfl
      · exact h.receives hr hin
      · obtain ⟨w₁, hgo, hr₁, h₁⟩ := h.close hr
        exact h₁.receives hr₁ (hin.imp_left hgo.keeps)
    · show ∃ x', World.readBytes x₂ = .ok x'
      rcases hx with rfl | rfl
      · exact World.readBytes_total (hmoves rfl) hshut
      · exact World.readBytes_total (hmoves rfl) hshut
    · exact sends_total _ _

theorem Holds.round_total (h : Holds w y x wrote read) (hr : Reach w)
    (hshort : wrote.length < 2 ^ 31)
    (hin : (∃ src, x.incoming ∈ w.wire src) ∨
      (x.datagramAdapter.read x.incoming).map Prod.fst = some none)
    (hshut : x.threadShut = true → Reader.bytesBuffered x.tcp.inboundStream = 0)
    {loop : Loop} (hsub : loop.fdRules.Sublist (World.rules .tunFd))
    (hnon : loop.nonFdRules = []) {answers : List Answer} (hk : World.Honest loop answers x)
    (hroom : World.Roomy loop answers x) (hopt : ∀ a ∈ answers, a.sockOpt = true)
    (abort : Bool) (ms : Nat) :
    ∃ out, World.round .tunFd abort answers ms loop x = .ok out := by
  obtain ⟨⟨result, loop₁, x₁⟩, hwait⟩ := World.wait_total hsub hnon hk hroom hopt
    fun r x₂ hcalled => h.serves_total hr hshort hin hshut hcalled
  have hserves := (World.wait_serves hsub hnon hk hwait).2.2
  obtain ⟨w₁, -, hr₁, h₁⟩ := h.serves hr hshort hin hserves
  unfold World.round
  rw [hwait]
  dsimp only [Except.bind]
  split
  · exact ⟨_, rfl⟩
  · obtain ⟨x', hticks⟩ := h₁.ticked hr₁ ms
    rw [hticks]
    exact ⟨_, rfl⟩

end

/-! ## The beginning of connect -/

/-- A peer that has done nothing has its SYN in flight after `connect`. -/
theorem connect_total {x : Socket} {cfg : TCPConfig} {isn : Wrap32}
    (h : x.tcp = .new cfg isn) : ∃ x', x.connect = .ok x' := by
  unfold World.connect
  rw [h]
  exact ⟨_, rfl⟩

/-- What a step leaves of a socket that is not started. -/
theorem idle_of_step {s s' : State} {l : Label} (hs : step s l = some s') {z : Side}
    (hz : s'.phase z = .idle) :
    s.phase z = .idle ∧ (s'.socket z).tcp = (s.socket z).tcp := by
  -- the side that acts, and the other one
  have hstarted : ∀ {y : Side} {phase : Phase}, phase ≠ .idle →
      Function.update s.phase y phase z = .idle → z ≠ y ∧ s.phase z = .idle := by
    intro y phase hne hp
    by_cases he : z = y
    · subst he
      rw [Function.update_self] at hp
      exact absurd hp hne
    · rw [Function.update_of_ne he] at hp
      exact ⟨he, hp⟩
  have hkept : ∀ {y : Side} {x : Socket}, x.tcp = (s.socket y).tcp →
      (Function.update s.socket y x z).tcp = (s.socket z).tcp := by
    intro y x hx
    by_cases he : z = y
    · subst he
      rw [Function.update_self]
      exact hx
    · rw [Function.update_of_ne he]
  cases l with
  | start y =>
    simp only [step] at hs
    split at hs
    · split at hs
      · cases hs
        exact ⟨(hstarted (by decide) hz).2, rfl⟩
      · obtain ⟨x, -, rfl⟩ := Except.toOption_map_eq_some.mp hs
        obtain ⟨hne, hidle⟩ := hstarted (by decide) hz
        refine ⟨hidle, ?_⟩
        simp only [State.setSocket, Function.update_of_ne hne]
    · cases hs
  | write y data =>
    simp only [step] at hs
    split at hs
    · cases hs
    · cases hs
      exact ⟨hz, hkept rfl⟩
  | shutdown y =>
    cases hs
    exact ⟨hz, hkept rfl⟩
  | read y len =>
    cases hs
    exact ⟨hz, hkept rfl⟩
  | round y abort answers ms moves source =>
    simp only [step] at hs
    split at hs
    · obtain ⟨bytes, -, hs⟩ := Option.bind_eq_some_iff.mp hs
      obtain ⟨⟨more, loop, x⟩, -, rfl⟩ := Except.toOption_map_eq_some.mp hs
      obtain ⟨hne, hidle⟩ := hstarted (by cases more <;> simp) hz
      refine ⟨hidle, ?_⟩
      simp only [State.setSocket, Function.update_of_ne hne]
    · cases hs

/-- Until a socket is started nobody calls its peer. -/
theorem inductive_idle : (machine.restrict Polite).Inductive fun s =>
    ∀ y, s.phase y = .idle → ∃ cfg isn, (s.socket y).tcp = .new cfg isn where
  init := by
    intro s hinit
    obtain ⟨cfg, isn, adapter, loop, -, -, -, rfl⟩ := hinit
    exact fun y _ => ⟨cfg y, isn y, rfl⟩
  step := by
    intro s l s' h hs z hz
    obtain ⟨hidle, htcp⟩ := idle_of_step hs.1 hz
    rw [htcp]
    exact h z hidle

theorem inductive_short : (machine.restrict Polite).Inductive fun s =>
    ∀ y, (s.wrote y).length < 2 ^ 31 where
  init := by
    intro s hinit
    obtain ⟨cfg, isn, adapter, loop, -, -, -, rfl⟩ := hinit
    exact fun y => by simp [start]
  step := fun s l s' _ hs => hs.2.short

/-! ## Every state -/

/-- What a round meets: a datagram of the medium or one without a segment, and a
kernel that says of the descriptors what is so. -/
structure Meets (s : State) (y : Side) (answers : List Answer) (moves : Option Nat)
    (source : Source) (bytes : Bytes) : Prop where
  arrives : s.bytes source = some bytes
  foreign : ∀ b, source = .foreign b →
    ((s.socket y).datagramAdapter.read b).map Prod.fst = some none
  honest : World.Honest (s.loop y) answers (s.faces y moves bytes)
  roomy : World.Roomy (s.loop y) answers (s.faces y moves bytes)
  sockOpt : ∀ a ∈ answers, a.sockOpt = true

/-- **No round fails.** Whatever has happened before, the beginning of `connect`
passes its check, and a round of a running socket comes to its end: no closure
throws, no queue is filled for ever, and no busy wait is reported. The exception
is a thread that has shut down the end for its owner and then gets more bytes. -/
theorem rounds_succeed (s : State) (hr : (machine.restrict Polite).Reachable s)
    (y : Side) :
    (s.phase y = .idle → ∃ s', step s (.start y) = some s') ∧
    (s.phase y = .running →
      ((s.socket y).threadShut = true →
        Reader.bytesBuffered (s.socket y).tcp.inboundStream = 0) →
      ∀ abort answers ms moves source bytes, Meets s y answers moves source bytes →
        ∃ s', step s (.round y abort answers ms moves source) = some s') := by
  obtain ⟨w, hw, h⟩ := inductive_refines.reachable s hr
  refine ⟨fun hidle => ?_, fun hrun hshut abort answers ms moves source bytes hm => ?_⟩
  · obtain ⟨cfg, isn, htcp⟩ := inductive_idle.reachable s hr y hidle
    obtain ⟨x, hx⟩ := connect_total htcp
    simp only [step, if_pos hidle]
    split
    · exact ⟨_, rfl⟩
    · rw [hx]
      exact ⟨_, rfl⟩
  · have hh := (h.holds y).faces moves bytes
    obtain ⟨hsub, hnon⟩ := h.rules y
    obtain ⟨out, hout⟩ := hh.round_total hw (inductive_short.reachable s hr y)
      (h.arrives hm.arrives hm.foreign) hshut hsub hnon hm.honest hm.roomy hm.sockOpt abort ms
    simp only [step, if_pos hrun, hm.arrives, Option.bind_some, hout]
    exact ⟨_, rfl⟩

instance (s : State) (y : Side) (answers : List Answer) (moves : Option Nat) (source : Source)
    (bytes : Bytes) : Decidable (Meets s y answers moves source bytes) :=
  decidable_of_iff (s.bytes source = some bytes ∧
      (∀ b, source = .foreign b →
        ((s.socket y).datagramAdapter.read b).map Prod.fst = some none) ∧
      World.Honest (s.loop y) answers (s.faces y moves bytes) ∧
      World.Roomy (s.loop y) answers (s.faces y moves bytes) ∧ ∀ a ∈ answers, a.sockOpt = true)
    ⟨fun h => ⟨h.1, h.2.1, h.2.2.1, h.2.2.2.1, h.2.2.2.2⟩, fun h => ⟨h.1, h.2, h.3, h.4, h.5⟩⟩

/-- After the call the client hears the SYN of the server once more. -/
theorem rounds_succeed_again : ∃ s, (machine.restrict Polite).Run
    (start (fun _ => Network.smallConfig) (fun _ => ⟨0⟩) Wire.ends (World.initialLoop .tunFd))
    calling s ∧ ∃ s', step s (hearing .left 0) = some s' := by
  have hrun : (LTS.exec (fun s l => (step s l).filter fun s' => decide (Polite s l s'))
      (start (fun _ => Network.smallConfig) (fun _ => ⟨0⟩) Wire.ends (World.initialLoop .tunFd))
      calling).map (fun s => decide (s.phase .left = .running ∧
        (s.socket .left).threadShut = false) && (s.bytes (.sent .right 0)).any fun bytes =>
          decide (Meets s .left (said 0 POLLIN) none (.sent .right 0) bytes)) = some true := by
    decide +kernel
  obtain ⟨s, hs, he⟩ := Option.map_eq_some_iff.mp hrun
  have hsteps := LTS.run_of_filter (M := machine.restrict Polite) (fun _ _ _ h hc => ⟨h, hc⟩) hs
  have hinit : (machine.restrict Polite).init
      (start (fun _ => Network.smallConfig) (fun _ => ⟨0⟩) Wire.ends
        (World.initialLoop .tunFd)) :=
    ⟨_, _, _, _, fun _ => ⟨by decide, by decide⟩, ⟨rfl, by decide, .inr ⟨rfl, rfl, rfl⟩⟩,
      World.initializeTCP_eq _, rfl⟩
  obtain ⟨hstate, hmeets⟩ := Bool.and_eq_true_iff.mp he
  obtain ⟨hphase, hopen⟩ := of_decide_eq_true hstate
  obtain ⟨bytes, -, hm⟩ := (Option.any_eq_true _ _).mp hmeets
  refine ⟨s, hsteps, ?_⟩
  refine (rounds_succeed s ⟨_, _, hinit, hsteps⟩ .left).2 hphase (fun hshut => ?_) false _ 1 _ _ _
    (of_decide_eq_true hm)
  rw [hopen] at hshut
  cases hshut

end StreamSocket.L4.Sockets
