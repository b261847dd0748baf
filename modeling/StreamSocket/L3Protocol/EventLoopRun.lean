import StreamSocket.L2Machine.EventLoop

/-!
# Runs of an EventLoop: what becomes of a rule

A program adds rules, cancels them through their handles, changes its own
world, and calls `wait_next_event`, in any order and with any poll results. The
closures may cancel handles too, in the middle of a call. The loop cannot look
into the world, so a log is kept in it: of the calls, the closures that ran,
and the handles that were cancelled.

* `rules_end`: nothing of a rule is run once its `cancel` has been called, nor
  in a call of `wait_next_event` that begins after its handle was cancelled;
  and what one call runs and drops, and why.
* `Walking`: the middle of a walk over the rules.
-/
namespace StreamSocket.L3.EventLoopRun

open L2 L2.EventLoop

/-- `waited` is a call of `wait_next_event`, `requested` one of
`RuleHandle::cancel`; the others are runs of closures. -/
inductive Event where
  | waited
  | requested (handle : Nat)
  | called (handle : Nat)
  | recovered (handle : Nat)
  | cancelled (handle : Nat)
  deriving DecidableEq, Repr

/-- The rule of which a closure ran. -/
def Event.ran : Event → Option Nat
  | .waited | .requested _ => none
  | .called h | .recovered h | .cancelled h => some h

/-- There is such a rule. -/
def Event.known (made : Nat) : Event → Bool
  | .waited => true
  | .requested h | .called h | .recovered h | .cancelled h => decide (h < made)

abbrev Logged (ω : Type) := ω × List Event

/-- The closures that ran, in order. -/
def runs (log : List Event) : List Event := log.filter (·.ran.isSome)

variable {ω : Type}

/-- `asked` are the handles that a closure cancels. -/
def noted (log : List Event) (e : Event) (asked : List Nat) : List Event :=
  log ++ e :: asked.map .requested

def logged (e : Event) (f : ω → Except String (ω × List Nat)) (w : Logged ω) :
    Except String (Logged ω) :=
  (f w.1).map fun (w', asked) => (w', noted w.2 e asked)

def loggedRecover (handle : Nat) (f : ω → Except String (ω × List Nat × Bool)) (w : Logged ω) :
    Except String (Logged ω × Bool) :=
  (f w.1).map fun (w', asked, keep) => ((w', noted w.2 (.recovered handle) asked), keep)

/-- `RuleHandle::cancel` has been called; if the rule is gone, nothing comes of it.
mirrors src/util/eventloop.cc:73-79 -/
def requested (handle : Nat) (w : Logged ω) : Bool := decide (.requested handle ∈ w.2)

structure State (ω : Type) where
  loop : EventLoop (Logged ω)
  world : Logged ω

def State.log (s : State ω) : List Event := s.world.2

/-- The world in which a call begins. -/
def State.call (s : State ω) : Logged ω := (s.world.1, s.log ++ [.waited])

/-- `act` is all else that the program does between two calls. -/
inductive Label (ω : Type) where
  | addCategory (name : String)
  | addFdRule (categoryId : Nat) (fd : ω → FileDescriptor) (direction : Direction)
      (callback : ω → Except String (ω × List Nat)) (interest : ω → Bool)
      (cancel : ω → Except String (ω × List Nat))
      (recover : ω → Except String (ω × List Nat × Bool))
  | addRule (categoryId : Nat) (callback : ω → Except String (ω × List Nat))
      (interest : ω → Bool)
  | cancel (handle : Nat)
  | act (w : ω)
  | wait (answers : List Answer)

/-- `none`: an exception, or a handle of a rule that was never added. -/
def step (s : State ω) : Label ω → Option (State ω)
  | .addCategory name => (s.loop.addCategory name).toOption.map fun (loop, _) =>
    { s with loop := loop }
  | .addFdRule categoryId fd direction callback interest cancel recover =>
    (s.loop.addFdRule categoryId (fun w => fd w.1) direction
      (logged (.called s.loop.made) callback) (fun w => interest w.1)
      (logged (.cancelled s.loop.made) cancel) (loggedRecover s.loop.made recover)
      (requested s.loop.made)).toOption.map fun (loop, _) => { s with loop := loop }
  | .addRule categoryId callback interest =>
    (s.loop.addRule categoryId (logged (.called s.loop.made) callback) (fun w => interest w.1)
      (requested s.loop.made)).toOption.map fun (loop, _) => { s with loop := loop }
  | .cancel handle =>
    if handle < s.loop.made then
      some { s with world := (s.world.1, s.log ++ [.requested handle]) }
    else none
  | .act w => some { s with world := (w, s.log) }
  | .wait answers => (s.loop.waitNextEvent answers s.call).toOption.bind fun (_, loop, world) =>
    if world.2.all (Event.known s.loop.made) then some { loop := loop, world := world } else none

def machine : LTS (State ω) (Label ω) :=
  LTS.ofFn (fun s => ∃ w, s = { loop := {}, world := (w, []) }) step

/-! ## The log -/

/-- A call has begun since the handle was cancelled. -/
def Asked (log : List Event) (handle : Nat) : Prop :=
  [.requested handle, .waited].Sublist log

/-- Nothing of the rule may be run any more. -/
def Over (log : List Event) (handle : Nat) : Prop :=
  .cancelled handle ∈ log ∨ Asked log handle

/-- A closure that ran was one of a rule that was not over. -/
def Quiet (log : List Event) : Prop :=
  ∀ before e after, log = before ++ e :: after → ∀ h, e.ran = some h → ¬ Over before h

theorem Quiet.snoc {log : List Event} {e : Event} (h : Quiet log)
    (he : ∀ h, e.ran = some h → ¬ Over log h) : Quiet (log ++ [e]) := by
  intro before x after hsplit
  rcases List.eq_nil_or_concat after with rfl | ⟨after, y, rfl⟩
  · obtain ⟨rfl, hx⟩ := List.append_inj' hsplit rfl
    cases hx
    exact he
  · rw [List.concat_eq_append, ← List.cons_append, ← List.append_assoc] at hsplit
    exact h _ _ _ (List.append_inj_left' hsplit rfl)

/-- Cancelling handles is no run of a closure. -/
theorem Quiet.requests {log : List Event} (h : Quiet log) (asked : List Nat) :
    Quiet (log ++ asked.map .requested) := by
  induction asked generalizing log with
  | nil =>
    rw [List.map_nil, List.append_nil]
    exact h
  | cons g asked ih =>
    rw [List.map_cons, List.append_cons]
    exact ih (h.snoc nofun)

theorem Quiet.noted {log : List Event} {e : Event} {handle : Nat} (h : Quiet log)
    (he : e.ran = some handle) (hover : ¬ Over log handle) (asked : List Nat) :
    Quiet (noted log e asked) := by
  unfold EventLoopRun.noted
  rw [List.append_cons]
  refine (h.snoc fun g hg => ?_).requests asked
  rw [he] at hg
  cases hg
  exact hover

/-- Only the beginning of a call counts. -/
theorem Asked.of_append {log evs : List Event} {handle : Nat} (h : Asked (log ++ evs) handle)
    (hevs : .waited ∉ evs) : Asked log handle := by
  obtain ⟨l₁, l₂, hl, h1, h2⟩ := List.sublist_append_iff.mp h
  rcases List.eq_nil_or_concat l₂ with rfl | ⟨l₂, x, rfl⟩
  · rw [List.append_nil] at hl
    unfold Asked
    rw [hl]
    exact h1
  · rw [List.concat_eq_append, ← List.append_assoc] at hl
    change [Event.requested handle] ++ [.waited] = _ at hl
    cases List.append_inj_right' hl rfl
    exact absurd (h2.subset (by simp)) hevs

theorem Asked.requested {log : List Event} {handle : Nat} (h : Asked log handle) :
    .requested handle ∈ log := h.subset (by simp)

theorem Over.of_append {log evs : List Event} {handle : Nat} (h : Over (log ++ evs) handle)
    (hevs : .waited ∉ evs) : .cancelled handle ∈ log ++ evs ∨ Asked log handle :=
  h.imp_right fun h => h.of_append hevs

theorem logged_eq_ok {e : Event} {f : ω → Except String (ω × List Nat)} {w w' : Logged ω}
    (h : logged e f w = .ok w') : ∃ asked, w'.2 = noted w.2 e asked := by
  obtain ⟨⟨w₁, asked⟩, -, rfl⟩ := Except.map_eq_ok.mp h
  exact ⟨asked, rfl⟩

theorem runs_append (l l' : List Event) : runs (l ++ l') = runs l ++ runs l' :=
  List.filter_append ..

/-- What a closure adds to the log. -/
theorem runs_noted {e : Event} {handle : Nat} (he : e.ran = some handle) (log : List Event)
    (asked : List Nat) : runs (noted log e asked) = runs log ++ [e] := by
  have hnil : runs (asked.map .requested) = [] := by
    unfold runs
    rw [List.filter_eq_nil_iff]
    rintro x hx
    obtain ⟨g, -, rfl⟩ := List.mem_map.mp hx
    exact Bool.false_ne_true
  unfold noted
  rw [List.append_cons, runs_append, hnil, List.append_nil, runs_append]
  congr 1
  simp [runs, he]

theorem mem_noted {log : List Event} {e x : Event} {asked : List Nat} :
    x ∈ noted log e asked ↔ x ∈ log ∨ x = e ∨ ∃ g ∈ asked, x = .requested g := by
  unfold noted
  simp [eq_comm]

/-- What is neither the run nor a request was there before. -/
theorem mem_of_mem_noted {log : List Event} {e x : Event} {asked : List Nat}
    (h : x ∈ noted log e asked) (he : x ≠ e) (hx : ∀ g, x ≠ .requested g) : x ∈ log := by
  rcases mem_noted.mp h with h | h | ⟨g, -, h⟩
  · exact h
  · exact absurd h he
  · exact absurd h (hx g)

/-! ## The rules -/

/-- The closures of a rule keep the log, and its flag is what is in the log. -/
structure Formed (r : BasicRule (Logged ω)) : Prop where
  callback : ∃ f, r.callback = logged (.called r.handle) f
  cancelRequested : r.cancelRequested = requested r.handle

structure FormedFd (r : FDRule (Logged ω)) : Prop where
  cancel : ∃ f, r.cancel = logged (.cancelled r.handle) f
  recover : ∃ f, r.recover = loggedRecover r.handle f

/-- All rules, those on descriptors first. -/
def rules (loop : EventLoop (Logged ω)) : List (BasicRule (Logged ω)) :=
  loop.fdRules.map (·.toBasicRule) ++ loop.nonFdRules

structure Inv (s : State ω) : Prop where
  handles : ((rules s.loop).map (·.handle)).Nodup
  made : ∀ r ∈ rules s.loop, r.handle < s.loop.made
  known : ∀ e ∈ s.log, e.known s.loop.made = true
  formed : ∀ r ∈ rules s.loop, Formed r
  formedFd : ∀ r ∈ s.loop.fdRules, FormedFd r
  alive : ∀ r ∈ rules s.loop, .cancelled r.handle ∉ s.log
  quiet : Quiet s.log

/-- A rule whose flag is not set has not been asked to go. -/
theorem Formed.fresh {r : BasicRule (Logged ω)} (h : Formed r) {w : Logged ω}
    (hc : r.cancelRequested w = false) {log evs : List Event} (hlog : w.2 = log ++ evs) :
    ¬ Asked log r.handle := by
  intro hasked
  rw [h.cancelRequested] at hc
  refine of_decide_eq_false hc ?_
  rw [hlog]
  exact List.mem_append_left _ hasked.requested

/-! ## A walk over the rules -/

/-- In the middle of a walk over `rs₀`, which began with `log`: `ks` are kept, `rs`
are ahead, and only rules for which `P` holds have been recovered. -/
structure Walking (P : FDRule (Logged ω) → Prop) (rs₀ : List (FDRule (Logged ω)))
    (log : List Event) (ks rs : List (FDRule (Logged ω))) (w : Logged ω) : Prop where
  order : (ks ++ rs).Sublist rs₀
  fresh : ∀ r ∈ ks, ¬ Asked log r.handle
  alive : ∀ r ∈ ks ++ rs, .cancelled r.handle ∉ w.2
  quiet : Quiet w.2
  gained : ∃ evs, w.2 = log ++ evs ∧ (runs evs).Nodup ∧ ∀ e ∈ evs, (∃ g, e = .requested g) ∨
    ∃ r ∈ rs₀, e = .cancelled r.handle ∨
      (e = .recovered r.handle ∧ P r ∧ r.handle ∉ rs.map (·.handle))

variable {P : FDRule (Logged ω) → Prop} {rs₀ ks rs : List (FDRule (Logged ω))} {log : List Event}
  {r : FDRule (Logged ω)} {w w' : Logged ω}

/-- So far no other call has begun. -/
theorem Walking.asked (h : Walking P rs₀ log ks rs w) {handle : Nat}
    (ha : Asked w.2 handle) : Asked log handle := by
  obtain ⟨evs, he, -, hall⟩ := h.gained
  rw [he] at ha
  refine ha.of_append fun hmem => ?_
  rcases hall _ hmem with ⟨g, hg⟩ | ⟨x, -, hx | ⟨hx, -⟩⟩
  · cases hg
  · cases hx
  · cases hx

theorem Walking.open (h : Walking P rs₀ log ks rs w) (hr : r ∈ ks ++ rs)
    (hf : ¬ Asked log r.handle) : ¬ Over w.2 r.handle :=
  fun ho => ho.elim (h.alive r hr) fun ha => hf (h.asked ha)

/-- Of the rules ahead without the first, none has been recovered either. -/
theorem Walking.gained_tail (h : Walking P rs₀ log ks (r :: rs) w) :
    ∃ evs, w.2 = log ++ evs ∧ (runs evs).Nodup ∧ ∀ e ∈ evs, (∃ g, e = .requested g) ∨
      ∃ x ∈ rs₀, e = .cancelled x.handle ∨
        (e = .recovered x.handle ∧ P x ∧ x.handle ∉ rs.map (·.handle)) := by
  obtain ⟨evs, he, hn, hall⟩ := h.gained
  refine ⟨evs, he, hn, fun e hmem => (hall e hmem).imp_right ?_⟩
  rintro ⟨x, hx, hk | ⟨hk, hp, hout⟩⟩
  · exact ⟨x, hx, .inl hk⟩
  · exact ⟨x, hx, .inr ⟨hk, hp, fun hmem => hout (List.mem_cons_of_mem _ hmem)⟩⟩

/-- The rule is passed over. -/
theorem Walking.pass (h : Walking P rs₀ log ks (r :: rs) w) (hf : ¬ Asked log r.handle) :
    Walking P rs₀ log (ks ++ [r]) rs w where
  order := by
    rw [List.append_assoc]
    exact h.order
  fresh := fun x hx => by
    rcases List.mem_append.mp hx with hx | hx
    · exact h.fresh x hx
    · rw [List.mem_singleton.mp hx]
      exact hf
  alive := by
    rw [List.append_assoc]
    exact h.alive
  quiet := h.quiet
  gained := h.gained_tail

/-- The rule goes, its handle was cancelled. -/
theorem Walking.skip (h : Walking P rs₀ log ks (r :: rs) w) :
    Walking P rs₀ log ks rs w where
  order := ((List.sublist_cons_self r rs).append_left ks).trans h.order
  fresh := h.fresh
  alive := fun x hx => by
    refine h.alive x ?_
    rcases List.mem_append.mp hx with hx | hx
    · exact List.mem_append_left _ hx
    · exact List.mem_append_right _ (List.mem_cons_of_mem _ hx)
  quiet := h.quiet
  gained := h.gained_tail

/-- The handles of what is kept and what is ahead differ. -/
theorem Walking.nodup (h : Walking P rs₀ log ks rs w) (hn : (rs₀.map (·.handle)).Nodup) :
    ((ks ++ rs).map (·.handle)).Nodup := (h.order.map _).nodup hn

/-- The rule is recovered, for now. -/
theorem Walking.recover (h : Walking P rs₀ log ks (r :: rs) w)
    (hn : (rs₀.map (·.handle)).Nodup) (hr : FormedFd r) (hf : ¬ Asked log r.handle) (hP : P r)
    {keep : Bool} (hrec : r.recover w = .ok (w', keep)) :
    Walking P rs₀ log (ks ++ [r]) rs w' := by
  have hopen := h.open (r := r) (by simp) hf
  have hout : r.handle ∉ rs.map (·.handle) := by
    have hnod := h.nodup hn
    rw [List.map_append, List.map_cons] at hnod
    exact (List.nodup_cons.mp (List.nodup_append.mp hnod).2.1).1
  obtain ⟨f, hf'⟩ := hr.recover
  rw [hf'] at hrec
  obtain ⟨⟨w₁, asked, keep⟩, -, hw⟩ := Except.map_eq_ok.mp hrec
  cases hw
  have hold := h.pass hf
  obtain ⟨evs, he, hnod, hall⟩ := h.gained
  obtain ⟨evs', he', -, hall'⟩ := h.gained_tail
  cases List.append_cancel_left (he.symm.trans he')
  refine ⟨hold.order, hold.fresh, fun x hx hmem => ?_, h.quiet.noted rfl hopen asked,
    noted evs (.recovered r.handle) asked, ?_, ?_, fun e hmem => ?_⟩
  · exact hold.alive x hx (mem_of_mem_noted hmem (by simp) (by simp))
  · show noted w.2 _ _ = _
    rw [he]
    exact List.append_assoc ..
  · rw [runs_noted rfl]
    refine List.nodup_append.mpr ⟨hnod, List.nodup_singleton _, fun e hmem e' hmem' => ?_⟩
    rintro rfl
    rw [List.mem_singleton.mp hmem'] at hmem
    rcases hall _ (List.mem_of_mem_filter hmem) with ⟨g, hg⟩ | ⟨x, -, hx | ⟨hx, -, hout⟩⟩
    · cases hg
    · cases hx
    · have heq : r.handle = x.handle := Event.recovered.inj hx
      rw [← heq] at hout
      exact hout List.mem_cons_self
  · rcases mem_noted.mp hmem with hmem | rfl | ⟨g, -, rfl⟩
    · exact hall' e hmem
    · refine .inr ⟨r, h.order.subset (by simp), .inr ⟨rfl, hP, hout⟩⟩
    · exact .inl ⟨g, rfl⟩

/-- The rule that was passed over last is cancelled. -/
theorem Walking.cancel (h : Walking P rs₀ log (ks ++ [r]) rs w)
    (hn : (rs₀.map (·.handle)).Nodup) (hr : FormedFd r) (hc : r.cancel w = .ok w') :
    Walking P rs₀ log ks rs w' := by
  have hin : r ∈ (ks ++ [r]) ++ rs := by simp
  have hopen := h.open hin (h.fresh r (by simp))
  have hsub : (ks ++ rs).Sublist ((ks ++ [r]) ++ rs) := by simp
  obtain ⟨f, hf⟩ := hr.cancel
  rw [hf] at hc
  obtain ⟨asked, hlog⟩ := logged_eq_ok hc
  obtain ⟨evs, he, hnod, hall⟩ := h.gained
  refine ⟨hsub.trans h.order, fun x hx => h.fresh x (by simp [hx]), fun x hx hmem => ?_, ?_,
    noted evs (.cancelled r.handle) asked, ?_, ?_, fun e hmem => ?_⟩
  · rw [hlog] at hmem
    refine h.alive x (hsub.subset hx) (mem_of_mem_noted hmem (fun heq => ?_) (by simp))
    -- another rule has another handle
    have hdistinct := h.nodup hn
    simp only [List.append_assoc, List.singleton_append] at hdistinct
    rw [List.map_append, List.map_cons] at hdistinct
    have hmid := List.nodup_middle.mp hdistinct
    refine (List.nodup_cons.mp hmid).1 ?_
    rw [← List.map_append, ← Event.cancelled.inj heq]
    exact List.mem_map_of_mem hx
  · rw [hlog]
    exact h.quiet.noted rfl hopen asked
  · rw [hlog, he]
    exact List.append_assoc ..
  · rw [runs_noted rfl]
    refine List.nodup_append.mpr ⟨hnod, List.nodup_singleton _, fun e hmem e' hmem' => ?_⟩
    rintro rfl
    rw [List.mem_singleton.mp hmem'] at hmem
    apply h.alive r hin
    rw [he]
    exact List.mem_append_right _ (List.mem_of_mem_filter hmem)
  · rcases mem_noted.mp hmem with hmem | rfl | ⟨g, -, rfl⟩
    · exact hall e hmem
    · exact .inr ⟨r, h.order.subset hin, .inl rfl⟩
    · exact .inl ⟨g, rfl⟩

/-- What a walk that began with `log` does with rules that stay and rules that go. -/
structure Tame (P : FDRule (Logged ω) → Prop) (rs₀ : List (FDRule (Logged ω)))
    (log : List Event) (K D : FDRule (Logged ω) → Logged ω → Logged ω → Prop) : Prop where
  keep : ∀ r ∈ rs₀, ∀ w w' evs, w.2 = log ++ evs → K r w w' → ¬ Asked log r.handle ∧
    (w' = w ∨ (P r ∧ r.recover w = .ok (w', true)))
  drop : ∀ r ∈ rs₀, ∀ w w' evs, w.2 = log ++ evs → D r w w' → w' = w ∨
    (¬ Asked log r.handle ∧ ∃ w₁, (w₁ = w ∨ (P r ∧ r.recover w = .ok (w₁, false))) ∧
      r.cancel w₁ = .ok w')

/-- The rules `post` are not walked over. -/
theorem Walking.walk {K D : FDRule (Logged ω) → Logged ω → Logged ω → Prop}
    {live post : List (FDRule (Logged ω))} (h : Walking P rs₀ log ks (rs ++ post) w)
    (hpass : Pass K D rs w live w') (ht : Tame P rs₀ log K D)
    (hn : (rs₀.map (·.handle)).Nodup) (hr : ∀ r ∈ rs₀, FormedFd r) :
    Walking P rs₀ log (ks ++ live) post w' := by
  refine hpass.follows (J := fun l rs x => Walking P rs₀ log l (rs ++ post) x)
    (fun l r rs x x' hJ hK => ?_) (fun l r rs x x' hJ hD => ?_) ks h
  · have hmem : r ∈ rs₀ := hJ.order.subset (by simp)
    obtain ⟨evs, he, -⟩ := hJ.gained
    obtain ⟨hf, rfl | ⟨hP, hrec⟩⟩ := ht.keep r hmem x x' evs he hK
    · exact hJ.pass hf
    · exact hJ.recover hn (hr r hmem) hf hP hrec
  · have hmem : r ∈ rs₀ := hJ.order.subset (by simp)
    obtain ⟨evs, he, -⟩ := hJ.gained
    rcases ht.drop r hmem x x' evs he hD with rfl | ⟨hf, x₁, rfl | ⟨hP, hrec⟩, hc⟩
    · exact hJ.skip
    · exact (hJ.pass hf).cancel hn (hr r hmem) hc
    · exact (hJ.recover hn (hr r hmem) hf hP hrec).cancel hn (hr r hmem) hc

theorem tame_setUp (hr : ∀ r ∈ rs₀, Formed r.toBasicRule) :
    Tame (fun _ => False) rs₀ log Live Dead where
  keep := fun r hmem _ _ _ he hl => ⟨(hr r hmem).fresh hl.1 he, .inl hl.2.2⟩
  drop := fun r hmem w _ _ he hd =>
    hd.imp (·.2) fun ⟨hc, _, hcancel⟩ => ⟨(hr r hmem).fresh hc he, w, .inl rfl, hcancel⟩

/-- `poll` says that there is an error on the rule's descriptor. -/
def Erred (loop : EventLoop (Logged ω)) (answers : List Answer) (w : Logged ω)
    (r : FDRule (Logged ω)) : Prop :=
  ∃ live pollfds w₁, setUp loop.fdRules w = .ok (live, pollfds, w₁) ∧
    ∃ (k : Nat) (p : PollFd), live[k]? = some r ∧ (poll pollfds answers)[k]? = some p ∧
      p.verdict r.direction = .error

theorem tame_results {loop : EventLoop (Logged ω)} {answers : List Answer}
    {pre post : List (FDRule (Logged ω))} {pollfds : List PollFd}
    (hs : setUp loop.fdRules w = .ok (pre ++ post, pollfds, w'))
    (hf : ∀ r ∈ pre ++ post, ¬ Asked log r.handle) :
    Tame (Erred loop answers w) rs₀ log (Said Spared (poll pollfds answers) 0 pre)
      (Said Failed (poll pollfds answers) 0 pre) where
  keep := fun r _ x x' _ _ hsaid => by
    obtain ⟨k, p, hk, hp, hK⟩ := hsaid.append post
    rw [Nat.zero_add] at hp
    refine ⟨hf r (List.mem_of_getElem? hk), ?_⟩
    rcases hK with ⟨-, hx⟩ | ⟨hv, hrec⟩
    · exact .inl hx
    · exact .inr ⟨⟨_, _, _, hs, k, p, hk, hp, hv⟩, hrec⟩
  drop := fun r _ x x' _ _ hsaid => by
    obtain ⟨k, p, hk, hp, hD⟩ := hsaid.append post
    rw [Nat.zero_add] at hp
    refine .inr ⟨hf r (List.mem_of_getElem? hk), ?_⟩
    rcases hD with ⟨-, hc⟩ | ⟨hv, x₁, hx₁, hc⟩
    · exact ⟨x, .inl rfl, hc⟩
    · exact ⟨x₁, hx₁.imp_right fun hrec => ⟨⟨_, _, _, hs, k, p, hk, hp, hv⟩, hrec⟩, hc⟩

/-! ## One call -/

variable {s s' : State ω}

theorem Inv.fd_nodup (h : Inv s) : (s.loop.fdRules.map (·.handle)).Nodup := by
  have hn := h.handles
  unfold rules at hn
  rw [List.map_append, List.map_map] at hn
  exact (List.nodup_append.mp hn).1

theorem mem_rules_fd {loop : EventLoop (Logged ω)} (h : r ∈ loop.fdRules) :
    r.toBasicRule ∈ rules loop :=
  List.mem_append_left _ (List.mem_map_of_mem h)

theorem mem_rules_non {loop : EventLoop (Logged ω)} {r : BasicRule (Logged ω)}
    (h : r ∈ loop.nonFdRules) : r ∈ rules loop :=
  List.mem_append_right _ h

/-- The handles of the two kinds of rules differ. -/
theorem Inv.apart (h : Inv s) {x : BasicRule (Logged ω)} (hr : r ∈ s.loop.fdRules)
    (hx : x ∈ s.loop.nonFdRules) : r.handle ≠ x.handle := by
  have hn := h.handles
  unfold rules at hn
  rw [List.map_append, List.map_map] at hn
  exact (List.nodup_append.mp hn).2.2 _ (List.mem_map_of_mem hr) _ (List.mem_map_of_mem hx)

theorem Inv.call_quiet (h : Inv s) : Quiet s.call.2 := h.quiet.snoc nofun

theorem Inv.call_alive (h : Inv s) {r : BasicRule (Logged ω)} (hr : r ∈ rules s.loop) :
    .cancelled r.handle ∉ s.call.2 := by
  intro hmem
  rcases List.mem_append.mp hmem with hmem | hmem
  · exact h.alive r hr hmem
  · cases List.mem_singleton.mp hmem

/-- The walk of `setUp`. -/
theorem Inv.setUp (h : Inv s) {live : List (FDRule (Logged ω))} {pollfds : List PollFd}
    (hs : EventLoop.setUp s.loop.fdRules s.call = .ok (live, pollfds, w)) :
    Walking (fun _ => False) s.loop.fdRules s.call.2 live [] w := by
  have hstart : Walking (fun _ => False) s.loop.fdRules s.call.2 [] (s.loop.fdRules ++ [])
      s.call := by
    rw [List.append_nil]
    refine ⟨List.Sublist.refl _, by simp, fun r hr => h.call_alive (mem_rules_fd hr),
      h.call_quiet, [], by simp, by simp [runs], by simp⟩
  exact hstart.walk (setUp_pass hs).1 (tame_setUp fun r hr => h.formed _ (mem_rules_fd hr))
    h.fd_nodup h.formedFd

/-- Nothing has been recovered, so the next walk can begin. -/
theorem Walking.ahead (h : Walking (fun _ => False) rs₀ log rs [] w) :
    Walking P rs₀ log [] rs w where
  order := by
    rw [List.nil_append, ← List.append_nil rs]
    exact h.order
  fresh := by simp
  alive := fun x hx => h.alive x (by simpa using hx)
  quiet := h.quiet
  gained := by
    obtain ⟨evs, he, hn, hall⟩ := h.gained
    refine ⟨evs, he, hn, fun e hmem => (hall e hmem).imp_right ?_⟩
    rintro ⟨x, hx, hk | ⟨-, hf, -⟩⟩
    · exact ⟨x, hx, .inl hk⟩
    · exact hf.elim

/-- The two walks of a call, up to the rules `post`. -/
theorem Inv.walks (h : Inv s) {answers : List Answer} {pre post : List (FDRule (Logged ω))}
    {pollfds : List PollFd}
    (hs : EventLoop.setUp s.loop.fdRules s.call = .ok (pre ++ post, pollfds, w))
    (hw : Walk (poll pollfds answers) 0 pre w ks w') :
    Walking (Erred s.loop answers s.call) s.loop.fdRules s.call.2 ks post w' ∧
      ∀ r ∈ pre ++ post, ¬ Asked s.call.2 r.handle := by
  have hset := h.setUp hs
  exact ⟨hset.ahead.walk hw (tame_results hs hset.fresh) h.fd_nodup h.formedFd, hset.fresh⟩

/-- A call has run the closures `steps`, and then called the rule `h`, `n` times. -/
structure Waited (answers : List Answer) (s s' : State ω) (steps : List Event) (n h : Nat) :
    Prop where
  log : ∃ evs, s'.log = s.log ++ .waited :: evs ∧ .waited ∉ evs ∧
    runs evs = steps ++ List.replicate n (.called h)
  nodup : steps.Nodup
  handled : ∀ e ∈ steps, ∃ r ∈ s.loop.fdRules,
    (e = .recovered r.handle ∧ Erred s.loop answers s.call r) ∨
      (e = .cancelled r.handle ∧ r ∉ s'.loop.fdRules)
  fdRules : s'.loop.fdRules.Sublist s.loop.fdRules
  nonFdRules : s'.loop.nonFdRules.Sublist s.loop.nonFdRules
  made : s'.loop.made = s.loop.made
  gone : ∀ r ∈ s.loop.fdRules, r ∈ s'.loop.fdRules ∨ Gone s.loop answers s.call r
  asked : ∀ r ∈ s.loop.nonFdRules, r ∈ s'.loop.nonFdRules ∨ .requested r.handle ∈ s.log
  calls : n = 0 ∨
    (n = 1 ∧ ∃ r w, r.handle = h ∧ Due s.loop.fdRules answers s.call r s'.loop.fdRules w ∧
      r.callback w = .ok s'.world) ∨
    (n ≤ 128 ∧ steps = [] ∧ ∃ r, r.handle = h ∧ First s.loop.nonFdRules s.call r ∧
      Spun r n s.call s'.world)

/-- What a walk has logged. -/
theorem Walking.steps {answers : List Answer} {loop' : EventLoop (Logged ω)}
    (h : Walking (Erred s.loop answers s.call) s.loop.fdRules s.call.2 ks rs w)
    (hleft : loop'.fdRules = ks ++ rs) :
    ∃ evs, w.2 = s.log ++ .waited :: evs ∧ .waited ∉ evs ∧ (runs evs).Nodup ∧
      ∀ e ∈ runs evs, ∃ r ∈ s.loop.fdRules,
        (e = .recovered r.handle ∧ Erred s.loop answers s.call r) ∨
          (e = .cancelled r.handle ∧ r ∉ loop'.fdRules) := by
  obtain ⟨evs, he, hn, hall⟩ := h.gained
  refine ⟨evs, by rw [he]; exact List.append_assoc .., fun hmem => ?_, hn, fun e hmem => ?_⟩
  · rcases hall _ hmem with ⟨g, hg⟩ | ⟨r, -, hr | ⟨hr, -⟩⟩
    · cases hg
    · cases hr
    · cases hr
  · obtain ⟨hmem, hran⟩ := List.mem_filter.mp hmem
    rcases hall e hmem with ⟨g, rfl⟩ | ⟨r, hr, rfl | ⟨rfl, hP, -⟩⟩
    · cases hran
    · refine ⟨r, hr, .inr ⟨rfl, fun hk => ?_⟩⟩
      rw [hleft] at hk
      refine h.alive r hk ?_
      rw [he]
      exact List.mem_append_right _ hmem
    · exact ⟨r, hr, .inl ⟨rfl, hP⟩⟩

/-- What a call keeps of the rules and of the log. -/
structure Kept (s' : State ω) : Prop where
  alive : ∀ r ∈ rules s'.loop, .cancelled r.handle ∉ s'.log
  quiet : Quiet s'.log

/-- No rule without a descriptor is cancelled by a walk, nor one that is left. -/
theorem Inv.walk_alive (h : Inv s) {loop' : EventLoop (Logged ω)}
    (hw : Walking P s.loop.fdRules s.call.2 ks rs w) (hleft : loop'.fdRules = ks ++ rs)
    (hnon : loop'.nonFdRules.Sublist s.loop.nonFdRules) {x : BasicRule (Logged ω)}
    (hx : x ∈ rules loop') : .cancelled x.handle ∉ w.2 := by
  rcases List.mem_append.mp hx with hx | hx
  · obtain ⟨r, hr, rfl⟩ := List.mem_map.mp hx
    rw [hleft] at hr
    exact hw.alive r hr
  · have hx := hnon.subset hx
    obtain ⟨evs, he, -, hall⟩ := hw.gained
    rw [he]
    intro hmem
    rcases List.mem_append.mp hmem with hmem | hmem
    · exact h.call_alive (mem_rules_non hx) hmem
    · rcases hall _ hmem with ⟨g, hg⟩ | ⟨r, hr, hk | ⟨hk, -⟩⟩
      · cases hg
      · exact h.apart hr hx (Event.cancelled.inj hk).symm
      · cases hk

/-- A rule that spins logs its calls. -/
theorem spun_log {r : BasicRule (Logged ω)} {n : Nat} (h : Spun r n w w')
    (hr : ∃ f, r.callback = logged (.called r.handle) f) :
    ∃ evs, w'.2 = w.2 ++ evs ∧ runs evs = List.replicate n (.called r.handle) ∧
      (∀ e ∈ evs, e = .called r.handle ∨ ∃ g, e = .requested g) ∧
      (Quiet w.2 → ¬ Over w.2 r.handle → Quiet w'.2) := by
  induction h with
  | done _ => exact ⟨[], by simp, rfl, by simp, fun hq _ => hq⟩
  | @call n w w₁ w' _ hcall _ ih =>
    obtain ⟨evs, he, hruns, hall, hquiet⟩ := ih
    obtain ⟨f, hf⟩ := hr
    rw [hf] at hcall
    obtain ⟨asked, hlog⟩ := logged_eq_ok hcall
    have hmem : ∀ e ∈ noted [] (.called r.handle) asked,
        e = .called r.handle ∨ ∃ g, e = .requested g := by
      intro e he
      rcases mem_noted.mp he with he | rfl | ⟨g, -, rfl⟩
      · cases he
      · exact .inl rfl
      · exact .inr ⟨g, rfl⟩
    have hsplit : w₁.2 = w.2 ++ noted [] (.called r.handle) asked := hlog
    refine ⟨noted [] (.called r.handle) asked ++ evs, ?_, ?_, fun e hin => ?_,
      fun hq ho => ?_⟩
    · rw [he, hsplit, List.append_assoc]
    · rw [runs_append, runs_noted rfl, hruns, List.replicate_succ]
      rfl
    · exact (List.mem_append.mp hin).elim (hmem e) (hall e)
    · refine hquiet (hlog ▸ hq.noted rfl ho asked) fun hover => ho ?_
      rw [hsplit] at hover
      have hno : .waited ∉ noted [] (.called r.handle) asked := by
        intro hin
        rcases hmem _ hin with hin | ⟨g, hin⟩ <;> cases hin
      rcases hover.of_append hno with hc | ha
      · rcases List.mem_append.mp hc with hc | hc
        · exact .inl hc
        · rcases hmem _ hc with hc | ⟨g, hc⟩ <;> cases hc
      · exact .inr ha

/-- A rule without a descriptor is served. -/
theorem Inv.spun (h : Inv s) {answers : List Answer} {loop' : EventLoop (Logged ω)} {n : Nat}
    {r : BasicRule (Logged ω)} (hmade : loop'.made = s.loop.made)
    (hfd : loop'.fdRules = s.loop.fdRules)
    (hnon : loop'.nonFdRules.Sublist s.loop.nonFdRules)
    (hasked : ∀ r ∈ s.loop.nonFdRules, r ∈ loop'.nonFdRules ∨ .requested r.handle ∈ s.log)
    (hfirst : First s.loop.nonFdRules s.call r) (hn : n ≤ 128) (hspun : Spun r n s.call w') :
    Waited answers s ⟨loop', w'⟩ [] n r.handle ∧ Kept ⟨loop', w'⟩ := by
  have hr := mem_rules_non hfirst.mem
  obtain ⟨evs, he, hruns, hall, hquiet⟩ := spun_log hspun (h.formed r hr).callback
  have hlog : w'.2 = s.log ++ .waited :: evs := by
    rw [he]
    exact List.append_assoc ..
  have hno : .waited ∉ evs := by
    intro hin
    rcases hall _ hin with hin | ⟨g, hin⟩ <;> cases hin
  refine ⟨⟨⟨evs, hlog, hno, hruns⟩, List.nodup_nil, by simp, ?_, hnon, hmade,
    fun r hr => .inl ?_, hasked, .inr (.inr ⟨hn, rfl, r, rfl, hfirst, hspun⟩)⟩, ?_, ?_⟩
  · exact hfd ▸ List.Sublist.refl _
  · exact hfd ▸ hr
  · intro x hx hmem
    have hx : x ∈ rules s.loop := by
      unfold rules at hx ⊢
      rw [hfd] at hx
      exact ((List.Sublist.refl _).append hnon).subset hx
    change _ ∈ w'.2 at hmem
    rw [he] at hmem
    rcases List.mem_append.mp hmem with hmem | hmem
    · exact h.call_alive hx hmem
    · rcases hall _ hmem with hmem | ⟨g, hmem⟩ <;> cases hmem
  · refine hquiet h.call_quiet fun hover => hover.elim (h.call_alive hr) ?_
    exact (h.formed r hr).fresh hfirst.live (List.append_nil _).symm

/-- No rule is served. -/
theorem Inv.walked (h : Inv s) {answers : List Answer} {loop' : EventLoop (Logged ω)}
    (hmade : loop'.made = s.loop.made)
    (hnon : loop'.nonFdRules.Sublist s.loop.nonFdRules)
    (hasked : ∀ r ∈ s.loop.nonFdRules, r ∈ loop'.nonFdRules ∨ .requested r.handle ∈ s.log)
    (hgone : ∀ r ∈ s.loop.fdRules, r ∈ loop'.fdRules ∨ Gone s.loop answers s.call r)
    (hw : Walking (Erred s.loop answers s.call) s.loop.fdRules s.call.2 ks rs w')
    (hleft : loop'.fdRules = ks ++ rs) :
    ∃ steps, Waited answers s ⟨loop', w'⟩ steps 0 0 ∧ Kept ⟨loop', w'⟩ := by
  obtain ⟨evs, he, hno, hn, hsteps⟩ := hw.steps hleft
  refine ⟨runs evs, ⟨⟨evs, he, hno, (List.append_nil _).symm⟩, hn, hsteps, ?_, hnon, hmade,
    hgone, hasked, .inl rfl⟩, fun x hx => h.walk_alive hw hleft hnon hx, hw.quiet⟩
  exact hleft ▸ hw.order

/-- The rule `r` is served. -/
theorem Inv.served (h : Inv s) {answers : List Answer} {loop' : EventLoop (Logged ω)}
    (hmade : loop'.made = s.loop.made)
    (hnon : loop'.nonFdRules.Sublist s.loop.nonFdRules)
    (hasked : ∀ r ∈ s.loop.nonFdRules, r ∈ loop'.nonFdRules ∨ .requested r.handle ∈ s.log)
    (hgone : ∀ r ∈ s.loop.fdRules, r ∈ loop'.fdRules ∨ Gone s.loop answers s.call r)
    (hdue : Due s.loop.fdRules answers s.call r loop'.fdRules w) (hcall : r.callback w = .ok w') :
    ∃ steps, Waited answers s ⟨loop', w'⟩ steps 1 r.handle ∧ Kept ⟨loop', w'⟩ := by
  have hserved := hdue
  obtain ⟨-, hleft, hsetup, -, -, -, -, -, -, -, hwalk⟩ := hdue
  obtain ⟨hw, hfresh⟩ := h.walks hsetup hwalk
  obtain ⟨evs, he, hno, hn, hsteps⟩ := hw.steps hleft
  have hr : r ∈ s.loop.fdRules := hw.order.subset (by simp)
  obtain ⟨f, hf⟩ := (h.formed _ (mem_rules_fd hr)).callback
  have hrun := hcall
  rw [hf] at hrun
  obtain ⟨asked, hlog⟩ := logged_eq_ok hrun
  refine ⟨runs evs, ⟨⟨noted evs (.called r.handle) asked, ?_, fun hmem => ?_, runs_noted rfl ..⟩,
    hn, hsteps, hleft ▸ hw.order, hnon, hmade, hgone, hasked,
    .inr (.inl ⟨rfl, r, w, rfl, hserved, hcall⟩)⟩, fun x hx hmem => ?_, ?_⟩
  · show w'.2 = _
    rw [hlog, he]
    exact List.append_assoc ..
  · exact hno (mem_of_mem_noted hmem (by simp) (by simp))
  · change _ ∈ w'.2 at hmem
    rw [hlog] at hmem
    exact h.walk_alive hw hleft hnon hx (mem_of_mem_noted hmem (by simp) (by simp))
  · show Quiet w'.2
    rw [hlog]
    exact hw.quiet.noted rfl (hw.open (by simp) (hfresh r (by simp))) asked

/-- What one call does to the log and to the rules. -/
theorem Inv.waited (h : Inv s) {loop' : EventLoop (Logged ω)} {answers : List Answer}
    {res : Result} (hs : s.loop.waitNextEvent answers s.call = .ok (res, loop', w')) :
    ∃ steps n handle, Waited answers s ⟨loop', w'⟩ steps n handle ∧ Kept ⟨loop', w'⟩ := by
  obtain ⟨-, hmade, hnon, hout, hcases⟩ := wait_cases hs
  have hasked : ∀ r ∈ s.loop.nonFdRules, r ∈ loop'.nonFdRules ∨ .requested r.handle ∈ s.log := by
    intro r hr
    refine (hout r hr).imp_right fun hc => ?_
    rw [(h.formed r (mem_rules_non hr)).cancelRequested] at hc
    rcases List.mem_append.mp (of_decide_eq_true hc) with hc | hc
    · exact hc
    · cases List.mem_singleton.mp hc
  rcases hcases with ⟨-, hfd, r, n, hfirst, hn, hspun⟩ | hpolled
  · exact ⟨[], n, r.handle, h.spun hmade hfd hnon hasked hfirst hn hspun⟩
  · have hgone := fun r (hr : r ∈ s.loop.fdRules) => hpolled.gone hr
    generalize hleft : loop'.fdRules = left at hpolled
    -- without a second walk
    have hidle : ∀ {pollfds : List PollFd},
        EventLoop.setUp s.loop.fdRules s.call = .ok (left, pollfds, w') →
        ∃ steps n handle, Waited answers s ⟨loop', w'⟩ steps n handle ∧ Kept ⟨loop', w'⟩ := by
      intro pollfds hsetup
      obtain ⟨steps, hsteps⟩ := h.walked hmade hnon hasked hgone (h.setUp hsetup).ahead hleft
      exact ⟨steps, 0, 0, hsteps⟩
    cases hpolled with
    | exit hsetup _ => exact hidle hsetup
    | timeout hsetup _ => exact hidle hsetup
    | @walked live _ pollfds w₁ _ hsetup _ hwalk =>
      rw [← List.append_nil live] at hsetup
      obtain ⟨steps, hsteps⟩ := h.walked hmade hnon hasked hgone (h.walks hsetup hwalk).1
        (hleft.trans (List.append_nil _).symm)
      exact ⟨steps, 0, 0, hsteps⟩
    | @served r _ w₂ _ hdue hcall _ =>
      rw [← hleft] at hdue
      obtain ⟨steps, hsteps⟩ := h.served hmade hnon hasked hgone hdue hcall
      exact ⟨steps, 1, r.handle, hsteps⟩

/-- A call that comes to its end. -/
theorem Inv.wait_step (h : Inv s) {answers : List Answer}
    (hs : step s (.wait answers) = some s') :
    (∀ e ∈ s'.log, e.known s.loop.made = true) ∧
      ∃ steps n handle, Waited answers s s' steps n handle ∧ Kept s' := by
  obtain ⟨⟨res, loop, world⟩, hwait, hs⟩ := Except.toOption_bind_eq_some.mp hs
  change (if _ then _ else _) = _ at hs
  split at hs
  · rename_i hall
    cases hs
    exact ⟨List.all_eq_true.mp hall, h.waited hwait⟩
  · cases hs

theorem Inv.wait (h : Inv s) {answers : List Answer} {steps : List Event} {n handle : Nat}
    (hknown : ∀ e ∈ s'.log, e.known s.loop.made = true) (hw : Waited answers s s' steps n handle)
    (hk : Kept s') : Inv s' := by
  have hsub : (rules s'.loop).Sublist (rules s.loop) := (hw.fdRules.map _).append hw.nonFdRules
  refine ⟨(hsub.map _).nodup h.handles, fun r hr => ?_, fun e he => ?_,
    fun r hr => h.formed r (hsub.subset hr), fun r hr => h.formedFd r (hw.fdRules.subset hr),
    hk.alive, hk.quiet⟩
  · rw [hw.made]
    exact h.made r (hsub.subset hr)
  · rw [hw.made]
    exact hknown e he

/-! ## A run -/

theorem inv_start (w : ω) : Inv { loop := {}, world := (w, []) } where
  handles := List.nodup_nil
  made := by simp [rules]
  known := by simp [State.log]
  formed := by simp [rules]
  formedFd := by simp
  alive := by simp [rules]
  quiet := fun before e after he => by simp [State.log] at he

theorem known_mono {e : Event} {made made' : Nat} (h : e.known made = true)
    (hle : made ≤ made') : e.known made' = true := by
  cases e with
  | waited => rfl
  | _ g => exact decide_eq_true (Nat.lt_of_lt_of_le (of_decide_eq_true h) hle)

/-- A rule that is new. -/
theorem Inv.add (h : Inv s) {loop' : EventLoop (Logged ω)} {r : BasicRule (Logged ω)}
    (hmade : loop'.made = s.loop.made + 1) (hrules : (rules loop').Perm (r :: rules s.loop))
    (hr : r.handle = s.loop.made) (hformed : Formed r)
    (hfd : ∀ x ∈ loop'.fdRules, FormedFd x) : Inv { s with loop := loop' } where
  handles := by
    refine (hrules.map _).nodup_iff.mpr (List.nodup_cons.mpr ⟨fun hmem => ?_, h.handles⟩)
    obtain ⟨x, hx, he⟩ := List.mem_map.mp hmem
    have hlt := h.made x hx
    exact Nat.ne_of_lt hlt (he.trans hr)
  made := fun x hx => by
    show x.handle < loop'.made
    rcases List.mem_cons.mp (hrules.subset hx) with rfl | hx
    · omega
    · have := h.made x hx
      omega
  known := fun e he => known_mono (h.known e he) (show s.loop.made ≤ loop'.made by omega)
  formed := fun x hx => by
    rcases List.mem_cons.mp (hrules.subset hx) with rfl | hx
    · exact hformed
    · exact h.formed x hx
  formedFd := hfd
  alive := fun x hx hmem => by
    rcases List.mem_cons.mp (hrules.subset hx) with rfl | hx
    · -- no event so far is one of the new rule
      have hlt : x.handle < s.loop.made := of_decide_eq_true (h.known _ hmem)
      omega
    · exact h.alive x hx hmem
  quiet := h.quiet

theorem rules_addFd (loop : EventLoop (Logged ω)) (r : FDRule (Logged ω)) (made : Nat) :
    (rules { loop with fdRules := loop.fdRules ++ [r], made := made }).Perm
      (r.toBasicRule :: rules loop) := by
  unfold rules
  rw [List.map_append, List.append_assoc]
  exact List.perm_middle

/-- A handle is cancelled between two calls. -/
theorem Inv.cancel (h : Inv s) {handle : Nat} (hlt : handle < s.loop.made) :
    Inv { s with world := (s.world.1, s.log ++ [.requested handle]) } where
  handles := h.handles
  made := h.made
  known := fun e he => by
    rcases List.mem_append.mp he with he | he
    · exact h.known e he
    · rw [List.mem_singleton.mp he]
      exact decide_eq_true hlt
  formed := h.formed
  formedFd := h.formedFd
  alive := fun r hr hmem => by
    rcases List.mem_append.mp hmem with hmem | hmem
    · exact h.alive r hr hmem
    · cases List.mem_singleton.mp hmem
  quiet := h.quiet.snoc nofun

theorem Inv.step {l : Label ω} (h : Inv s) (hs : EventLoopRun.step s l = some s') : Inv s' := by
  cases l with
  | addCategory name =>
    obtain ⟨⟨loop, _⟩, hadd, rfl⟩ := Except.toOption_map_eq_some.mp hs
    unfold EventLoop.addCategory at hadd
    split at hadd
    · cases hadd
    · cases hadd
      exact ⟨h.handles, h.made, h.known, h.formed, h.formedFd, h.alive, h.quiet⟩
  | addFdRule categoryId fd direction callback interest cancel recover =>
    obtain ⟨⟨loop, _⟩, hadd, rfl⟩ := Except.toOption_map_eq_some.mp hs
    unfold EventLoop.addFdRule at hadd
    split at hadd
    · cases hadd
    · cases hadd
      refine h.add rfl (rules_addFd _ _ _) rfl ⟨⟨callback, rfl⟩, rfl⟩ fun x hx => ?_
      rcases List.mem_append.mp hx with hx | hx
      · exact h.formedFd x hx
      · rw [List.mem_singleton.mp hx]
        exact ⟨⟨cancel, rfl⟩, ⟨recover, rfl⟩⟩
  | addRule categoryId callback interest =>
    obtain ⟨⟨loop, _⟩, hadd, rfl⟩ := Except.toOption_map_eq_some.mp hs
    unfold EventLoop.addRule at hadd
    split at hadd
    · cases hadd
    · cases hadd
      refine h.add (r := ⟨s.loop.made, categoryId, fun w => interest w.1,
        logged (.called s.loop.made) callback, requested s.loop.made⟩) rfl ?_ rfl
        ⟨⟨callback, rfl⟩, rfl⟩ h.formedFd
      unfold rules
      rw [← List.append_assoc]
      exact List.perm_append_singleton _ _
  | cancel handle =>
    change (if _ then _ else _) = _ at hs
    split at hs
    · rename_i hlt
      cases hs
      exact h.cancel hlt
    · cases hs
  | act w =>
    cases hs
    exact ⟨h.handles, h.made, h.known, h.formed, h.formedFd, h.alive, h.quiet⟩
  | wait answers =>
    obtain ⟨hknown, _, _, _, hw, hk⟩ := h.wait_step hs
    exact h.wait hknown hw hk

theorem inductive_inv : (machine : LTS (State ω) (Label ω)).Inductive Inv where
  init := by
    intro s hs
    obtain ⟨w, rfl⟩ := hs
    exact inv_start w
  step := fun s l s' h hs => h.step hs

/-- **Rules end.** Whatever the program adds, cancels and does between the calls,
whatever the closures cancel in the middle of one, and whatever `poll` says: a
closure that runs is one of a rule whose `cancel` has not been called, and for
which no call has begun since its handle was cancelled. And each call of
`wait_next_event` first recovers and cancels rules on descriptors, each at most
once, and then calls at most one rule: the first interested one without a
descriptor, until it loses interest, 128 times at most; or once the first one that
is ready, which was interested (`Due`). A rule is gone afterwards only for a
reason. -/
theorem rules_end (s : State ω) (hr : machine.Reachable s) :
    Quiet s.log ∧ ∀ answers s', step s (.wait answers) = some s' →
      ∃ steps n handle, Waited answers s s' steps n handle := by
  have h := inductive_inv.reachable s hr
  refine ⟨h.quiet, fun answers s' hs => ?_⟩
  obtain ⟨-, steps, n, handle, hw, -⟩ := h.wait_step hs
  exact ⟨steps, n, handle, hw⟩

/-! ## A program with two rules -/

/-- Reads until the end of file, which it meets at the third read; the second one
cancels the other rule. -/
def reader : Label FileDescriptor :=
  .addFdRule 0 id .In
    (fun fd => .ok ({ fd with readCount := fd.readCount + 1, eof := fd.readCount == 2 },
      if fd.readCount = 1 then [1] else []))
    (fun _ => true) (fun fd => .ok (fd, [])) (fun fd => .ok (fd, [], false))

/-- Writes before each read. -/
def writer : Label FileDescriptor :=
  .addRule 0 (fun fd => .ok ({ fd with writeCount := fd.writeCount + 1 }, []))
    (fun fd => fd.writeCount ≤ fd.readCount)

def readable : Label FileDescriptor := .wait [{ revents := POLLIN }]

/-- The handle of the writer is cancelled in the middle of a call, and so it writes
no third time; then the end of file cancels the reader. -/
theorem rules_end_reads : ∃ s, machine.Run
    ({ loop := {}, world := ({ fd := 3 }, []) } : State FileDescriptor)
    [.addCategory "copy", reader, writer, readable, readable, .wait [], readable, readable,
      readable, readable] s ∧
    runs s.log = [.called 1, .called 0, .called 1, .called 0, .called 0, .cancelled 0] ∧
      Quiet s.log ∧ ∀ answers s', step s (.wait answers) = some s' →
        ∃ steps n handle, Waited answers s s' steps n handle := by
  have hrun : (LTS.exec step ({ loop := {}, world := ({ fd := 3 }, []) } : State FileDescriptor)
      [.addCategory "copy", reader, writer, readable, readable, .wait [], readable, readable,
        readable, readable]).map (runs ∘ State.log) =
      some [.called 1, .called 0, .called 1, .called 0, .called 0, .cancelled 0] := by
    decide +kernel
  obtain ⟨s, hs, he⟩ := Option.map_eq_some_iff.mp hrun
  have hsteps : machine.Run _ _ s := LTS.run_of_exec hs
  exact ⟨s, hsteps, he, rules_end s ⟨_, _, ⟨_, rfl⟩, hsteps⟩⟩

end StreamSocket.L3.EventLoopRun
