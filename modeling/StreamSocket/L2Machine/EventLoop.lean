import StreamSocket.Core.LTS
import StreamSocket.L2Machine.FileDescriptor

/-!
# EventLoop: callbacks on file descriptors, served one rule at a time

The closures of a rule act on whatever the program around the loop is, here a
world `ω`; the interests are the pure ones that this repository has. A closure
may hold handles of rules, so `cancel_requested` is part of the world too. What
`poll` and `getsockopt` answer is an input.

One call of `wait_next_event` serves the first rule without a descriptor that
is interested; else it drops the rules whose descriptor is done, polls the
rest, and serves the first one that is ready, on the way dropping those that
failed or hung up. `Pass` is such a walk over the rules.

* `spin_cases`: how often a rule without a descriptor is called.
* `setUp_pass`, `setUp_asked`: who is polled, and that events are asked for a
  rule only if it was interested.
* `results_cases`: who is served, and what happens to the rules before it.
* `wait_cases`: what one call does.
* `wait_error`, `wait_busy`: why a call throws, and for which rule it reports a
  busy wait.
-/
namespace StreamSocket.L2

/-- mirrors src/util/eventloop.hh:17-21 -/
inductive Direction where
  | In | Out
  deriving DecidableEq, Repr

def POLLIN : UInt16 := 0x001
def POLLOUT : UInt16 := 0x004
def POLLERR : UInt16 := 0x008
def POLLHUP : UInt16 := 0x010
def POLLNVAL : UInt16 := 0x020

/-- mirrors src/util/eventloop.hh:19-20 -/
def Direction.events : Direction → UInt16
  | .In => POLLIN
  | .Out => POLLOUT

/-- `handle` is what a RuleHandle points to; `cancelRequested` reads the flag that
the rule shares with its handles.
mirrors src/util/eventloop.hh:35-43 -/
structure BasicRule (ω : Type) where
  handle : Nat
  categoryId : Nat
  interest : ω → Bool
  callback : ω → Except String ω
  cancelRequested : ω → Bool := fun _ => false

/-- mirrors src/util/eventloop.hh:45-61 -/
structure FDRule (ω : Type) extends BasicRule ω where
  fd : ω → FileDescriptor
  direction : Direction
  cancel : ω → Except String ω
  recover : ω → Except String (ω × Bool)

/-- `made` counts the rules ever added.
mirrors src/util/eventloop.hh:63-65 -/
structure EventLoop (ω : Type) where
  ruleCategories : List String := []
  fdRules : List (FDRule ω) := []
  nonFdRules : List (BasicRule ω) := []
  made : Nat := 0

/-- The exceptions of the loop itself, and those of a closure. -/
inductive Thrown where
  | maximumCategories
  | badCategoryId
  | outOfRange
  | getsockopt
  | busyWait (what : String)
  | thrown (what : String)
  deriving DecidableEq, Repr

/-- mirrors src/util/eventloop.hh:73-79 -/
inductive Result where
  | Success | Timeout | Exit
  deriving DecidableEq, Repr

/-- mirrors the use of pollfd in src/util/eventloop.cc:117-150 -/
structure PollFd where
  fd : Nat
  events : UInt16
  revents : UInt16 := 0
  deriving DecidableEq, Repr

/-- What the kernel says of one descriptor; `sockOpt`: `getsockopt` gives the
pending error, or says that it is no socket. -/
structure Answer where
  revents : UInt16 := 0
  sockOpt : Bool := true
  deriving DecidableEq, Repr

/-- What the loop makes of a poll result. -/
inductive Verdict where
  | error | hangup | ready | idle
  deriving DecidableEq, Repr

/-- mirrors src/util/eventloop.cc:170-171, 201-203, 213 -/
def PollFd.verdict (p : PollFd) (direction : Direction) : Verdict :=
  let pollError := (p.revents &&& (POLLERR ||| POLLNVAL)) != 0
  let pollReady := (p.revents &&& p.events) != 0
  let pollHup := (p.revents &&& POLLHUP) != 0
  if pollError then .error
  else if pollHup && ((p.events != 0 && !pollReady) || direction == .Out) then .hangup
  else if pollReady then .ready
  else .idle

/-- Nothing is ready that was not asked for. -/
theorem PollFd.asked_of_ready {p : PollFd} {d : Direction} (h : p.verdict d = .ready) :
    p.events ≠ 0 := by
  intro he
  simp only [verdict, he, UInt16.and_zero, bne_self_eq_false, Bool.false_and, Bool.false_or,
    Bool.false_eq_true, if_false] at h
  split at h
  · cases h
  · split at h <;> cases h

variable {ω : Type}

/-- mirrors src/util/eventloop.cc:11-14 -/
def FDRule.serviceCount (r : FDRule ω) (w : ω) : UInt32 :=
  match r.direction with
  | .In => (r.fd w).readCount
  | .Out => (r.fd w).writeCount

/-- What a closure throws goes through the loop. -/
def liftThrow {α : Type} : Except String α → Except Thrown α
  | .ok a => .ok a
  | .error what => .error (.thrown what)

namespace EventLoop

/-- The vector of categories never grows beyond what is reserved.
mirrors src/util/eventloop.cc:16-24, src/util/eventloop.hh:68 -/
def addCategory (loop : EventLoop ω) (name : String) : Except Thrown (EventLoop ω × Nat) :=
  if loop.ruleCategories.length ≥ 64 then .error .maximumCategories
  else .ok ({ loop with ruleCategories := loop.ruleCategories ++ [name] },
    loop.ruleCategories.length)

/-- mirrors src/util/eventloop.cc:42-58, src/util/eventloop.hh:89-96 -/
def addFdRule (loop : EventLoop ω) (categoryId : Nat) (fd : ω → FileDescriptor)
    (direction : Direction) (callback : ω → Except String ω)
    (interest : ω → Bool := fun _ => true) (cancel : ω → Except String ω := .ok)
    (recover : ω → Except String (ω × Bool) := fun w => .ok (w, false))
    (cancelRequested : ω → Bool := fun _ => false) : Except Thrown (EventLoop ω × Nat) :=
  if categoryId ≥ loop.ruleCategories.length then .error .badCategoryId
  else .ok ({ loop with
    fdRules := loop.fdRules ++ [{ handle := loop.made, categoryId, interest, callback,
                                  cancelRequested, fd, direction, cancel, recover }]
    made := loop.made + 1 }, loop.made)

/-- mirrors src/util/eventloop.cc:60-71, src/util/eventloop.hh:98-101 -/
def addRule (loop : EventLoop ω) (categoryId : Nat) (callback : ω → Except String ω)
    (interest : ω → Bool := fun _ => true) (cancelRequested : ω → Bool := fun _ => false) :
    Except Thrown (EventLoop ω × Nat) :=
  if categoryId ≥ loop.ruleCategories.length then .error .badCategoryId
  else .ok ({ loop with
    nonFdRules := loop.nonFdRules ++ [{ handle := loop.made, categoryId, interest, callback,
                                        cancelRequested }]
    made := loop.made + 1 }, loop.made)

/-- mirrors src/util/eventloop.cc:99-101, 219-221 -/
def busyWait (ruleCategories : List String) (r : BasicRule ω) (how : String) : Thrown :=
  match ruleCategories[r.categoryId]? with
  | none => .outOfRange
  | some name => .busyWait ("EventLoop: busy wait detected: rule \"" ++ name ++ "\" " ++ how)

/-! ## The rules without a descriptor -/

/-- A rule is called as long as it is interested, `rounds` times at most.
mirrors src/util/eventloop.cc:96-106 -/
def spin (ruleCategories : List String) (r : BasicRule ω) : Nat → ω → Except Thrown ω
  | 0, w =>
    if r.interest w then
      .error (busyWait ruleCategories r "is still interested after 129 iterations")
    else .ok w
  | rounds + 1, w =>
    if r.interest w then (liftThrow (r.callback w)).bind (spin ruleCategories r rounds)
    else .ok w

/-- The rules that are left, the world, and whether a rule has fired.
mirrors src/util/eventloop.cc:86-114 -/
def serveNonFd (ruleCategories : List String) :
    List (BasicRule ω) → ω → Except Thrown (List (BasicRule ω) × ω × Bool)
  | [], w => .ok ([], w, false)
  | r :: rs, w =>
    if r.cancelRequested w then serveNonFd ruleCategories rs w
    else if r.interest w then (spin ruleCategories r 128 w).map fun w' => (r :: rs, w', true)
    else (serveNonFd ruleCategories rs w).map fun (rs', w', fired) => (r :: rs', w', fired)

/-! ## The rules on descriptors -/

/-- The rules that are left, what to poll for each of them, and the world.
mirrors src/util/eventloop.cc:117-153 -/
def setUp : List (FDRule ω) → ω → Except Thrown (List (FDRule ω) × List PollFd × ω)
  | [], w => .ok ([], [], w)
  | r :: rs, w =>
    if r.cancelRequested w then setUp rs w
    else if (r.direction == .In && (r.fd w).eof) || (r.fd w).closed then
      (liftThrow (r.cancel w)).bind (setUp rs)
    else
      let pollfd : PollFd :=
        { fd := (r.fd w).fd, events := if r.interest w then r.direction.events else 0 }
      (setUp rs w).map fun (rs', pollfds, w') => (r :: rs', pollfd :: pollfds, w')

/-- `poll` fills in what has happened. -/
def poll : List PollFd → List Answer → List PollFd
  | [], _ => []
  | p :: ps, answers => { p with revents := (answers.headD {}).revents } :: poll ps answers.tail

/-- An error that is not recovered from cancels the rule.
mirrors src/util/eventloop.cc:171-196 -/
def failed (r : FDRule ω) (p : PollFd) (answer : Answer) (w : ω) : Except Thrown (ω × Bool) :=
  (if (p.revents &&& POLLNVAL) != 0 then .ok (w, false) else liftThrow (r.recover w)).bind
    fun (w, keep) =>
      if keep then .ok (w, true)
      else if answer.sockOpt then (liftThrow (r.cancel w)).map fun w => (w, false)
      else .error .getsockopt

/-- A callback that leaves its descriptor alone has to lose interest.
mirrors src/util/eventloop.cc:215-222 -/
def serve (ruleCategories : List String) (r : FDRule ω) (w : ω) : Except Thrown ω :=
  (liftThrow (r.callback w)).bind fun w' =>
    if r.serviceCount w = r.serviceCount w' ∧ (r.fd w').closed = false ∧
        r.interest w' = true then
      .error (busyWait ruleCategories r.toBasicRule
        "did not read/write fd and is still interested")
    else .ok w'

/-- The loop over the poll results; `idx` counts the rules that it has seen.
mirrors src/util/eventloop.cc:166-228 -/
def results (ruleCategories : List String) (pollfds : List PollFd) (answers : List Answer) :
    List (FDRule ω) → Nat → ω → Except Thrown (List (FDRule ω) × ω)
  | [], _, w => .ok ([], w)
  | r :: rs, idx, w =>
    match pollfds[idx]? with
    | none => .error .outOfRange
    | some p =>
      match p.verdict r.direction with
      | .error => (failed r p (answers[idx]?.getD {}) w).bind fun (w, keep) =>
        (results ruleCategories pollfds answers rs (idx + 1) w).map fun (rs', w') =>
          (if keep then r :: rs' else rs', w')
      | .hangup => (liftThrow (r.cancel w)).bind
        (results ruleCategories pollfds answers rs (idx + 1))
      | .ready => (serve ruleCategories r w).map fun w' => (r :: rs, w')
      | .idle => (results ruleCategories pollfds answers rs (idx + 1) w).map fun (rs', w') =>
        (r :: rs', w')

/-- mirrors src/util/eventloop.cc:83-231 -/
def waitNextEvent (loop : EventLoop ω) (answers : List Answer) (w : ω) :
    Except Thrown (Result × EventLoop ω × ω) :=
  (serveNonFd loop.ruleCategories loop.nonFdRules w).bind fun (nonFdRules, w, fired) =>
    let loop := { loop with nonFdRules := nonFdRules }
    if fired then .ok (.Success, loop, w)
    else (setUp loop.fdRules w).bind fun (fdRules, pollfds, w) =>
      -- `something_to_poll` is set exactly where events are asked for
      if pollfds.all (·.events == 0) then .ok (.Exit, { loop with fdRules := fdRules }, w)
      else
        let pollfds := poll pollfds answers
        if pollfds.all (·.revents == 0) then .ok (.Timeout, { loop with fdRules := fdRules }, w)
        else (results loop.ruleCategories pollfds answers fdRules 0 w).map fun (fdRules, w) =>
          (.Success, { loop with fdRules := fdRules }, w)

/-! ## A walk over the rules -/

/-- From the rules and the world before to those after: `K` is what happens to a rule
that is kept, `D` what happens to one that is dropped. -/
inductive Pass (K D : FDRule ω → ω → ω → Prop) :
    List (FDRule ω) → ω → List (FDRule ω) → ω → Prop
  | nil (w : ω) : Pass K D [] w [] w
  | keep {r : FDRule ω} {rs ks : List (FDRule ω)} {w w₁ w' : ω} :
      K r w w₁ → Pass K D rs w₁ ks w' → Pass K D (r :: rs) w (r :: ks) w'
  | drop {r : FDRule ω} {rs ks : List (FDRule ω)} {w w₁ w' : ω} :
      D r w w₁ → Pass K D rs w₁ ks w' → Pass K D (r :: rs) w ks w'

variable {K D : FDRule ω → ω → ω → Prop}

theorem Pass.sublist {rs ks : List (FDRule ω)} {w w' : ω} (h : Pass K D rs w ks w') :
    ks.Sublist rs := by
  induction h with
  | nil => exact .slnil
  | keep _ _ ih => exact ih.cons_cons _
  | drop _ _ ih => exact ih.cons _

theorem Pass.mono {K' D' : FDRule ω → ω → ω → Prop} {rs ks : List (FDRule ω)} {w w' : ω}
    (h : Pass K D rs w ks w') (hK : ∀ r w w', K r w w' → K' r w w')
    (hD : ∀ r w w', D r w w' → D' r w w') : Pass K' D' rs w ks w' := by
  induction h with
  | nil w => exact .nil w
  | keep hr _ ih => exact .keep (hK _ _ _ hr) ih
  | drop hr _ ih => exact .drop (hD _ _ _ hr) ih

/-- A rule that is not there afterwards was dropped when its turn came. -/
theorem Pass.dropped {rs ks : List (FDRule ω)} {w w' : ω} (h : Pass K D rs w ks w')
    {r : FDRule ω} (hr : r ∈ rs) :
    r ∈ ks ∨ ∃ pre post ks' w₁ w₂, rs = pre ++ r :: post ∧ Pass K D pre w ks' w₁ ∧ D r w₁ w₂ := by
  induction h with
  | nil => cases hr
  | @keep x rs ks w w₁ w' hx _ ih =>
    rcases List.mem_cons.mp hr with rfl | hr
    · exact .inl List.mem_cons_self
    · rcases ih hr with hk | ⟨pre, post, ks', w₂, w₃, rfl, hpre, hd⟩
      · exact .inl (List.mem_cons_of_mem _ hk)
      · exact .inr ⟨x :: pre, post, x :: ks', w₂, w₃, rfl, .keep hx hpre, hd⟩
  | @drop x rs ks w w₁ w' hx _ ih =>
    rcases List.mem_cons.mp hr with rfl | hr
    · exact .inr ⟨[], rs, [], w, w₁, rfl, .nil w, hx⟩
    · rcases ih hr with hk | ⟨pre, post, ks', w₂, w₃, rfl, hpre, hd⟩
      · exact .inl hk
      · exact .inr ⟨x :: pre, post, ks', w₂, w₃, rfl, .drop hx hpre, hd⟩

/-- `J` is about the rules kept so far, those ahead, and the world. -/
theorem Pass.follows {J : List (FDRule ω) → List (FDRule ω) → ω → Prop}
    {rs ks : List (FDRule ω)} {w w' : ω} (h : Pass K D rs w ks w')
    (hK : ∀ l r rs x x', J l (r :: rs) x → K r x x' → J (l ++ [r]) rs x')
    (hD : ∀ l r rs x x', J l (r :: rs) x → D r x x' → J l rs x')
    (l : List (FDRule ω)) (hJ : J l rs w) : J (l ++ ks) [] w' := by
  induction h generalizing l with
  | nil =>
    rw [List.append_nil]
    exact hJ
  | @keep r rs ks w w₁ w' hr _ ih =>
    have hthis := ih (l ++ [r]) (hK _ _ _ _ _ hJ hr)
    rwa [List.append_assoc] at hthis
  | drop hr _ ih => exact ih l (hD _ _ _ _ _ hJ hr)

/-- What closures of a rule other than its callback do on a walk. -/
inductive Handled (r : FDRule ω) (w : ω) : ω → Prop
  | idle : Handled r w w
  | recovered {w' : ω} : r.recover w = .ok (w', true) → Handled r w w'
  | cancelled {w₁ w' : ω} : (w₁ = w ∨ r.recover w = .ok (w₁, false)) → r.cancel w₁ = .ok w' →
      Handled r w w'

/-- What each `cancel` and each `recover` keeps, the walk keeps. -/
theorem Pass.keeps {P : ω → Prop} {rs ks : List (FDRule ω)} {w w' : ω}
    (h : Pass Handled Handled rs w ks w')
    (hcancel : ∀ r ∈ rs, ∀ w w', P w → r.cancel w = .ok w' → P w')
    (hrecover : ∀ r ∈ rs, ∀ w w' keep, P w → r.recover w = .ok (w', keep) → P w') (hw : P w) :
    P w' := by
  have hone : ∀ r ∈ rs, ∀ x x', P x → Handled r x x' → P x' := by
    intro r hr x x' hx hh
    cases hh with
    | idle => exact hx
    | recovered hrec => exact hrecover r hr _ _ _ hx hrec
    | cancelled hrec hc =>
      refine hcancel r hr _ _ ?_ hc
      rcases hrec with rfl | hrec
      · exact hx
      · exact hrecover r hr _ _ _ hx hrec
  clear hcancel hrecover
  induction h with
  | nil => exact hw
  | keep hr _ ih =>
    exact ih (hone _ List.mem_cons_self _ _ hw hr) fun x hx => hone x (List.mem_cons_of_mem _ hx)
  | drop hr _ ih =>
    exact ih (hone _ List.mem_cons_self _ _ hw hr) fun x hx => hone x (List.mem_cons_of_mem _ hx)

theorem liftThrow_eq_ok {α : Type} {x : Except String α} {a : α} (h : liftThrow x = .ok a) :
    x = .ok a := by
  cases x with
  | error e => cases h
  | ok b => cases h; rfl

/-! ## Setting up -/

/-- A descriptor from which nothing more will come. -/
def Done (r : FDRule ω) (w : ω) : Prop :=
  (r.direction = .In ∧ (r.fd w).eof = true) ∨ (r.fd w).closed = true

theorem done_iff (r : FDRule ω) (w : ω) :
    ((r.direction == .In && (r.fd w).eof) || (r.fd w).closed) = true ↔ Done r w := by
  simp [Done]

/-- A rule that is polled. -/
def Live (r : FDRule ω) (w w' : ω) : Prop :=
  r.cancelRequested w = false ∧ ¬ Done r w ∧ w' = w

/-- A rule that goes before the poll; its `cancel` is not called if its handle was
cancelled. -/
def Dead (r : FDRule ω) (w w' : ω) : Prop :=
  (r.cancelRequested w = true ∧ w' = w) ∨
    (r.cancelRequested w = false ∧ Done r w ∧ r.cancel w = .ok w')

theorem Pass.handled {rs ks : List (FDRule ω)} {w w' : ω} (h : Pass Live Dead rs w ks w') :
    Pass Handled Handled rs w ks w' := by
  refine h.mono (fun r w w' hr => ?_) fun r w w' hr => ?_
  · obtain ⟨-, -, rfl⟩ := hr
    exact .idle
  · rcases hr with ⟨-, rfl⟩ | ⟨-, -, hc⟩
    · exact .idle
    · exact .cancelled (.inl rfl) hc

/-- The kinds of step of `setUp`. -/
theorem setUp_cases {r : FDRule ω} {rs live : List (FDRule ω)} {pollfds : List PollFd} {w w' : ω}
    (h : setUp (r :: rs) w = .ok (live, pollfds, w')) :
    (∃ w₁, Dead r w w₁ ∧ setUp rs w₁ = .ok (live, pollfds, w')) ∨
    ∃ live' pollfds', Live r w w ∧ live = r :: live' ∧
      pollfds = { fd := (r.fd w).fd, events := if r.interest w then r.direction.events else 0 } ::
        pollfds' ∧ setUp rs w = .ok (live', pollfds', w') := by
  rw [setUp] at h
  cases hc : r.cancelRequested w with
  | true =>
    rw [if_pos hc] at h
    exact .inl ⟨w, .inl ⟨hc, rfl⟩, h⟩
  | false =>
    rw [if_neg (by simp [hc])] at h
    by_cases hd : Done r w
    · rw [if_pos ((done_iff r w).mpr hd)] at h
      obtain ⟨w₁, hw, h⟩ := Except.bind_eq_ok.mp h
      exact .inl ⟨w₁, .inr ⟨hc, hd, liftThrow_eq_ok hw⟩, h⟩
    · rw [if_neg fun he => hd ((done_iff r w).mp he)] at h
      obtain ⟨⟨live', pollfds', w₁⟩, hs, he⟩ := Except.map_eq_ok.mp h
      cases he
      exact .inr ⟨live', pollfds', ⟨hc, hd, rfl⟩, rfl, rfl, hs⟩

theorem setUp_pass {rs live : List (FDRule ω)} {pollfds : List PollFd} {w w' : ω}
    (h : setUp rs w = .ok (live, pollfds, w')) :
    Pass Live Dead rs w live w' ∧ pollfds.length = live.length := by
  induction rs generalizing live pollfds w with
  | nil =>
    cases h
    exact ⟨.nil _, rfl⟩
  | cons r rs ih =>
    rcases setUp_cases h with ⟨w₁, hd, h⟩ | ⟨live', pollfds', hl, rfl, rfl, hs⟩
    · obtain ⟨h1, h2⟩ := ih h
      exact ⟨.drop hd h1, h2⟩
    · obtain ⟨h1, h2⟩ := ih hs
      exact ⟨.keep hl h1, by simp [h2]⟩

/-- Each rule that is left has its own place in what is polled; and events are
asked for only if the rule was interested, when its turn came. -/
theorem setUp_asked {rs pre post : List (FDRule ω)} {r : FDRule ω} {pollfds : List PollFd}
    {w w' : ω} (h : setUp rs w = .ok (pre ++ r :: post, pollfds, w')) :
    ∃ p pre₀ post₀ w₀, pollfds[pre.length]? = some p ∧ rs = pre₀ ++ r :: post₀ ∧
      Pass Live Dead pre₀ w pre w₀ ∧ Pass Live Dead post₀ w₀ post w' ∧ Live r w₀ w₀ ∧
      p.events = if r.interest w₀ then r.direction.events else 0 := by
  induction rs generalizing pre pollfds w with
  | nil => simp [setUp] at h
  | cons x rs ih =>
    rcases setUp_cases h with ⟨w₁, hd, h⟩ | ⟨live', pollfds', hlive, hl, rfl, h⟩
    · obtain ⟨p, pre₀, post₀, w₀, h1, h2, h3, h4⟩ := ih h
      exact ⟨p, x :: pre₀, post₀, w₀, h1, by rw [h2]; rfl, .drop hd h3, h4⟩
    · cases pre with
      | nil =>
        cases hl
        exact ⟨_, [], rs, w, rfl, rfl, .nil w, (setUp_pass h).1, hlive, rfl⟩
      | cons y pre =>
        cases hl
        obtain ⟨p, pre₀, post₀, w₀, h1, h2, h3, h4⟩ := ih h
        exact ⟨p, x :: pre₀, post₀, w₀, h1, by rw [h2]; rfl, .keep hlive h3, h4⟩

/-- A rule could not be dropped: a closure threw, or `getsockopt` failed. -/
def Broken (r : FDRule ω) (answers : List Answer) (e : Thrown) : Prop :=
  (∃ w what, (r.cancel w = .error what ∨ r.recover w = .error what) ∧ e = .thrown what) ∨
    ((∃ a ∈ answers, a.sockOpt = false) ∧ e = .getsockopt)

theorem setUp_error {rs : List (FDRule ω)} {answers : List Answer} {w : ω} {e : Thrown}
    (h : setUp rs w = .error e) : ∃ r ∈ rs, Broken r answers e := by
  induction rs generalizing w with
  | nil => cases h
  | cons r rs ih =>
    have hlater : ∀ {w₁ : ω}, setUp rs w₁ = .error e → ∃ x ∈ r :: rs, Broken x answers e := by
      intro w₁ h
      obtain ⟨x, hx, hb⟩ := ih h
      exact ⟨x, List.mem_cons_of_mem _ hx, hb⟩
    rw [setUp] at h
    split at h
    · exact hlater h
    · split at h
      · cases hc : r.cancel w with
        | error what =>
          rw [hc] at h
          cases h
          exact ⟨r, List.mem_cons_self, .inl ⟨w, what, .inl hc, rfl⟩⟩
        | ok w₁ =>
          rw [hc] at h
          exact hlater h
      · cases hs : setUp rs w with
        | error e =>
          rw [hs] at h
          cases h
          exact hlater hs
        | ok q =>
          rw [hs] at h
          cases h

/-! ## Serving -/

theorem poll_getElem (pollfds : List PollFd) (answers : List Answer) (k : Nat) :
    (poll pollfds answers)[k]? =
      pollfds[k]?.map fun p => { p with revents := (answers[k]?.getD {}).revents } := by
  induction pollfds generalizing answers k with
  | nil => simp [poll]
  | cons p ps ih =>
    cases k with
    | zero => cases answers <;> simp [poll]
    | succ k => cases answers <;> simp [poll, ih]

/-- What is done with a rule of which `poll` says `v`, if it stays. -/
def Spared (v : Verdict) (r : FDRule ω) (w w' : ω) : Prop :=
  (v = .idle ∧ w' = w) ∨ (v = .error ∧ r.recover w = .ok (w', true))

/-- And if it goes. -/
def Failed (v : Verdict) (r : FDRule ω) (w w' : ω) : Prop :=
  (v = .hangup ∧ r.cancel w = .ok w') ∨
    (v = .error ∧ ∃ w₁, (w₁ = w ∨ r.recover w = .ok (w₁, false)) ∧ r.cancel w₁ = .ok w')

/-- `S` of what `poll` says of `r`, one of the rules from the `idx`-th on. -/
def Said (S : Verdict → FDRule ω → ω → ω → Prop) (pollfds : List PollFd) (idx : Nat)
    (rs : List (FDRule ω)) (r : FDRule ω) (w w' : ω) : Prop :=
  ∃ k p, rs[k]? = some r ∧ pollfds[idx + k]? = some p ∧ S (p.verdict r.direction) r w w'

/-- There may be more rules behind. -/
theorem Said.append {S : Verdict → FDRule ω → ω → ω → Prop} {pollfds : List PollFd} {idx : Nat}
    {pre : List (FDRule ω)} {r : FDRule ω} {w w' : ω} (h : Said S pollfds idx pre r w w')
    (post : List (FDRule ω)) : Said S pollfds idx (pre ++ post) r w w' := by
  obtain ⟨k, p, hk, hp, hS⟩ := h
  refine ⟨k, p, ?_, hp, hS⟩
  rw [List.getElem?_append_left (List.getElem?_eq_some_iff.mp hk).1]
  exact hk

/-- The walk over the poll results. -/
def Walk (pollfds : List PollFd) (idx : Nat) (rs : List (FDRule ω)) (w : ω)
    (ks : List (FDRule ω)) (w' : ω) : Prop :=
  Pass (Said Spared pollfds idx rs) (Said Failed pollfds idx rs) rs w ks w'

theorem Walk.handled {pollfds : List PollFd} {idx : Nat} {rs ks : List (FDRule ω)} {w w' : ω}
    (h : Walk pollfds idx rs w ks w') : Pass Handled Handled rs w ks w' := by
  refine h.mono (fun r w w' hr => ?_) fun r w w' hr => ?_
  · obtain ⟨-, -, -, -, ⟨-, rfl⟩ | ⟨-, hrec⟩⟩ := hr
    · exact .idle
    · exact .recovered hrec
  · obtain ⟨-, -, -, -, ⟨-, hc⟩ | ⟨-, w₁, hw₁, hc⟩⟩ := hr
    · exact .cancelled (.inl rfl) hc
    · exact .cancelled hw₁ hc

/-- One more rule before. -/
theorem Walk.cons {pollfds : List PollFd} {idx : Nat} {r : FDRule ω} {rs ks : List (FDRule ω)}
    {p : PollFd} {w w₁ w' : ω} {keep : Bool} (h : Walk pollfds (idx + 1) rs w₁ ks w')
    (hp : pollfds[idx]? = some p)
    (hr : (if keep then Spared else Failed) (p.verdict r.direction) r w w₁) :
    Walk pollfds idx (r :: rs) w (if keep then r :: ks else ks) w' := by
  have hlater : ∀ (S : Verdict → FDRule ω → ω → ω → Prop) x y y',
      Said S pollfds (idx + 1) rs x y y' → Said S pollfds idx (r :: rs) x y y' := by
    rintro S x y y' ⟨k, q, hk, hq, hS⟩
    refine ⟨k + 1, q, hk, ?_, hS⟩
    rw [← hq]
    congr 1
    omega
  have hrest := h.mono (hlater Spared) (hlater Failed)
  cases keep with
  | true => exact .keep ⟨0, p, rfl, hp, hr⟩ hrest
  | false => exact .drop ⟨0, p, rfl, hp, hr⟩ hrest

/-- The loop over the results has come to `r`, in `w'`: it is ready, and no
rule before it was. -/
structure Reached (pollfds : List PollFd) (idx : Nat) (w : ω) (pre ks : List (FDRule ω))
    (r : FDRule ω) (w' : ω) : Prop where
  walk : Walk pollfds idx pre w ks w'
  ready : ∃ p, pollfds[idx + pre.length]? = some p ∧ p.verdict r.direction = .ready
  first : ∀ k x p, pre[k]? = some x → pollfds[idx + k]? = some p → p.verdict x.direction ≠ .ready

/-- One more rule before. -/
theorem Reached.cons {pollfds : List PollFd} {idx : Nat} {w w₁ w' : ω}
    {pre ks : List (FDRule ω)} {x r : FDRule ω} {p : PollFd} {keep : Bool}
    (h : Reached pollfds (idx + 1) w₁ pre ks r w') (hp : pollfds[idx]? = some p)
    (hv : p.verdict x.direction ≠ .ready)
    (hx : (if keep then Spared else Failed) (p.verdict x.direction) x w w₁) :
    Reached pollfds idx w (x :: pre) (if keep then x :: ks else ks) r w' where
  walk := h.walk.cons hp hx
  ready := by
    obtain ⟨q, hq, hr⟩ := h.ready
    exact ⟨q, by rw [← hq, List.length_cons]; congr 1; omega, hr⟩
  first := fun k y q hy hq => by
    cases k with
    | zero =>
      rw [Nat.add_zero, hp] at hq
      cases hq
      cases hy
      exact hv
    | succ k => exact h.first k y q hy (by rw [← hq]; congr 1; omega)

/-- What is done with a rule that is not served. -/
theorem passed_over {ruleCategories : List String} {pollfds : List PollFd} {answers : List Answer}
    {r : FDRule ω} {rs : List (FDRule ω)} {idx : Nat} {w : ω} {p : PollFd}
    {out : Except Thrown (List (FDRule ω) × ω)} (hp : pollfds[idx]? = some p)
    (hv : p.verdict r.direction ≠ .ready)
    (h : results ruleCategories pollfds answers (r :: rs) idx w = out) :
    (∃ e, out = .error e ∧ Broken r answers e) ∨
    ∃ (w₁ : ω) (keep : Bool), (if keep then Spared else Failed) (p.verdict r.direction) r w w₁ ∧
      out = (results ruleCategories pollfds answers rs (idx + 1) w₁).map fun (rs', w') =>
        (if keep then r :: rs' else rs', w') := by
  rw [results, hp] at h
  dsimp only at h
  obtain ⟨verdict, hc⟩ : ∃ verdict, p.verdict r.direction = verdict := ⟨_, rfl⟩
  rw [hc] at h hv ⊢
  cases verdict with
  | ready => exact absurd rfl hv
  | idle => exact .inr ⟨w, true, .inl ⟨rfl, rfl⟩, h.symm⟩
  | hangup =>
    dsimp only at h
    cases hw : r.cancel w with
    | error what =>
      rw [hw] at h
      exact .inl ⟨_, h.symm, .inl ⟨w, what, .inl hw, rfl⟩⟩
    | ok w₁ =>
      rw [hw] at h
      refine .inr ⟨w₁, false, .inl ⟨rfl, hw⟩, ?_⟩
      rw [← h]
      show results _ _ _ _ _ _ = _
      cases results ruleCategories pollfds answers rs (idx + 1) w₁ <;> rfl
  | error =>
    dsimp only at h
    -- without POLLNVAL the rule may recover
    have hrec : ∀ w₁, (w₁ = w ∨ r.recover w = .ok (w₁, false)) →
        out = ((if (answers[idx]?.getD {}).sockOpt then
          (liftThrow (r.cancel w₁)).map fun w => (w, false) else .error .getsockopt).bind
            fun (w, keep) => (results ruleCategories pollfds answers rs (idx + 1) w).map
              fun (rs', w') => (if keep then r :: rs' else rs', w')) →
        (∃ e, out = .error e ∧ Broken r answers e) ∨
        ∃ (w₁ : ω) (keep : Bool), (if keep then Spared else Failed) Verdict.error r w w₁ ∧
          out = (results ruleCategories pollfds answers rs (idx + 1) w₁).map fun (rs', w') =>
            (if keep then r :: rs' else rs', w') := by
      intro w₁ hw₁ h
      split at h
      · cases hw : r.cancel w₁ with
        | error what =>
          rw [hw] at h
          exact .inl ⟨_, h, .inl ⟨w₁, what, .inl hw, rfl⟩⟩
        | ok w₂ =>
          rw [hw] at h
          exact .inr ⟨w₂, false, .inr ⟨rfl, w₁, hw₁, hw⟩, h⟩
      · rename_i hopt
        refine .inl ⟨_, h, .inr ⟨?_, rfl⟩⟩
        -- a missing answer would be a good one
        cases ha : answers[idx]? with
        | none =>
          rw [ha] at hopt
          exact absurd rfl hopt
        | some a =>
          rw [ha] at hopt
          exact ⟨a, List.mem_of_getElem? ha, Bool.eq_false_of_not_eq_true hopt⟩
    unfold failed at h
    split at h
    · exact hrec w (.inl rfl) h.symm
    · cases hw : r.recover w with
      | error what =>
        rw [hw] at h
        exact .inl ⟨_, h.symm, .inl ⟨w, what, .inr hw, rfl⟩⟩
      | ok q =>
        obtain ⟨w₁, keep⟩ := q
        rw [hw] at h
        cases keep with
        | true => exact .inr ⟨w₁, true, .inr ⟨rfl, hw⟩, h.symm⟩
        | false => exact hrec w₁ (.inr hw) h.symm

/-- The callback has neither used its descriptor nor lost interest. -/
def Stuck (r : FDRule ω) (w w' : ω) : Prop :=
  r.serviceCount w = r.serviceCount w' ∧ (r.fd w').closed = false ∧ r.interest w' = true

/-- All rules are passed over, or one is served. -/
theorem results_cases {ruleCategories : List String} {pollfds : List PollFd}
    {answers : List Answer} {rs rs' : List (FDRule ω)} {idx : Nat} {w w' : ω}
    (h : results ruleCategories pollfds answers rs idx w = .ok (rs', w')) :
    Walk pollfds idx rs w rs' w' ∨
    ∃ pre ks r post w₁, rs = pre ++ r :: post ∧ rs' = ks ++ r :: post ∧
      Reached pollfds idx w pre ks r w₁ ∧ r.callback w₁ = .ok w' ∧ ¬ Stuck r w₁ w' := by
  induction rs generalizing idx w rs' with
  | nil =>
    cases h
    exact .inl (.nil _)
  | cons r rs ih =>
    cases hp : pollfds[idx]? with
    | none =>
      rw [results, hp] at h
      cases h
    | some p =>
      by_cases hv : p.verdict r.direction = .ready
      · rw [results, hp] at h
        simp only [hv] at h
        obtain ⟨w₁, hs, he⟩ := Except.map_eq_ok.mp h
        cases he
        obtain ⟨w₂, hw, hs⟩ := Except.bind_eq_ok.mp hs
        split at hs
        · cases hs
        · rename_i hstuck
          cases hs
          exact .inr ⟨[], [], r, rs, w, rfl, rfl, ⟨.nil w, ⟨p, hp, hv⟩, by simp⟩,
            liftThrow_eq_ok hw, hstuck⟩
      · rcases passed_over hp hv h with ⟨e, he, -⟩ | ⟨w₁, keep, hr, h⟩
        · cases he
        · obtain ⟨⟨rs₁, w₂⟩, hrest, he⟩ := Except.map_eq_ok.mp h.symm
          cases he
          rcases ih hrest with hwalk | ⟨pre, ks, x, post, w₃, rfl, rfl, hreach, hcall⟩
          · exact .inl (hwalk.cons hp hr)
          · refine .inr ⟨r :: pre, _, x, post, w₃, rfl, ?_, hreach.cons hp hv hr, hcall⟩
            cases keep <;> rfl

/-- The callback throws `e`, or the loop finds it stuck. -/
def Fails (r : FDRule ω) (w : ω) (e : Thrown) : Prop :=
  (∃ what, r.callback w = .error what ∧ e = .thrown what) ∨
    ∃ w', r.callback w = .ok w' ∧ Stuck r w w'

/-- The loop over the results fails with a rule that could not be dropped, or
with the one that was served. -/
theorem results_error {ruleCategories : List String} {pollfds : List PollFd}
    {answers : List Answer} {rs : List (FDRule ω)} {idx : Nat} {w : ω} {e : Thrown}
    (hlen : idx + rs.length ≤ pollfds.length)
    (h : results ruleCategories pollfds answers rs idx w = .error e) :
    (∃ r ∈ rs, Broken r answers e) ∨
    ∃ pre ks r post w₁, rs = pre ++ r :: post ∧ Reached pollfds idx w pre ks r w₁ ∧
      Fails r w₁ e := by
  induction rs generalizing idx w with
  | nil => cases h
  | cons r rs ih =>
    rw [List.length_cons] at hlen
    obtain ⟨p, hp⟩ : ∃ p, pollfds[idx]? = some p :=
      ⟨_, List.getElem?_eq_getElem (show idx < pollfds.length by omega)⟩
    by_cases hv : p.verdict r.direction = .ready
    · rw [results, hp] at h
      simp only [hv] at h
      refine .inr ⟨[], [], r, rs, w, rfl, ⟨.nil w, ⟨p, hp, hv⟩, by simp⟩, ?_⟩
      cases hw : r.callback w with
      | error what =>
        simp only [serve, hw] at h
        cases h
        exact .inl ⟨what, hw, rfl⟩
      | ok w' =>
        refine .inr ⟨w', hw, ?_⟩
        by_contra hn
        unfold Stuck at hn
        simp only [serve, hw, liftThrow, Except.bind, if_neg hn] at h
        cases h
    · rcases passed_over hp hv h with ⟨e', he, hb⟩ | ⟨w₁, keep, hr, h⟩
      · cases he
        exact .inl ⟨r, List.mem_cons_self, hb⟩
      · cases hrest : results ruleCategories pollfds answers rs (idx + 1) w₁ with
        | ok q =>
          rw [hrest] at h
          cases h
        | error e =>
          rw [hrest] at h
          cases h
          rcases ih (by omega) hrest with
            ⟨x, hx, hb⟩ | ⟨pre, ks, x, post, w₂, rfl, hreach, hfail⟩
          · exact .inl ⟨x, List.mem_cons_of_mem _ hx, hb⟩
          · exact .inr ⟨r :: pre, _, x, post, w₂, rfl, hreach.cons hp hv hr, hfail⟩

/-! ## One call -/

/-- Called `n` times, each time because it was interested, and no longer then. -/
inductive Spun (r : BasicRule ω) : Nat → ω → ω → Prop
  | done {w : ω} : r.interest w = false → Spun r 0 w w
  | call {n : Nat} {w w₁ w' : ω} : r.interest w = true → r.callback w = .ok w₁ →
      Spun r n w₁ w' → Spun r (n + 1) w w'

theorem spin_cases {ruleCategories : List String} {r : BasicRule ω} {rounds : Nat} {w w' : ω}
    (h : spin ruleCategories r rounds w = .ok w') : ∃ n ≤ rounds, Spun r n w w' := by
  induction rounds generalizing w with
  | zero =>
    rw [spin] at h
    split at h
    · cases h
    · rename_i hi
      cases h
      exact ⟨0, Nat.le_refl 0, .done (Bool.eq_false_of_not_eq_true hi)⟩
  | succ rounds ih =>
    rw [spin] at h
    split at h
    · rename_i hi
      obtain ⟨w₁, h1, h2⟩ := Except.bind_eq_ok.mp h
      obtain ⟨n, hn, hspun⟩ := ih h2
      exact ⟨n + 1, Nat.succ_le_succ hn, .call hi (liftThrow_eq_ok h1) hspun⟩
    · rename_i hi
      cases h
      exact ⟨0, Nat.zero_le _, .done (Bool.eq_false_of_not_eq_true hi)⟩

/-- The loop over the rules without a descriptor comes to `r`: each rule before it had
its handle cancelled or is not interested. -/
structure First (rs : List (BasicRule ω)) (w : ω) (r : BasicRule ω) : Prop where
  mem : r ∈ rs
  live : r.cancelRequested w = false
  interest : r.interest w = true
  before : ∃ pre post, rs = pre ++ r :: post ∧
    ∀ x ∈ pre, x.cancelRequested w = true ∨ x.interest w = false

/-- One more rule before. -/
theorem First.cons {rs : List (BasicRule ω)} {w : ω} {r x : BasicRule ω} (h : First rs w r)
    (hx : x.cancelRequested w = true ∨ x.interest w = false) : First (x :: rs) w r where
  mem := List.mem_cons_of_mem _ h.mem
  live := h.live
  interest := h.interest
  before := by
    obtain ⟨pre, post, rfl, hpre⟩ := h.before
    exact ⟨x :: pre, post, rfl, List.forall_mem_cons.mpr ⟨hx, hpre⟩⟩

/-- The first interested rule is served, if there is one; rules whose handles were
cancelled are dropped on the way. -/
theorem serveNonFd_cases {ruleCategories : List String} {rs rs' : List (BasicRule ω)} {w w' : ω}
    {fired : Bool} (h : serveNonFd ruleCategories rs w = .ok (rs', w', fired)) :
    rs'.Sublist rs ∧ (∀ r ∈ rs, r ∈ rs' ∨ r.cancelRequested w = true) ∧
      ((fired = false ∧ w' = w) ∨ (fired = true ∧ ∃ r n, First rs w r ∧ n ≤ 128 ∧
        Spun r n w w')) := by
  induction rs generalizing rs' with
  | nil =>
    cases h
    exact ⟨.slnil, by simp, .inl ⟨rfl, rfl⟩⟩
  | cons r rs ih =>
    rw [serveNonFd] at h
    split at h
    · rename_i hc
      obtain ⟨h1, h2, h3⟩ := ih h
      refine ⟨h1.cons _, List.forall_mem_cons.mpr ⟨.inr hc, h2⟩, h3.imp_right ?_⟩
      rintro ⟨hf, x, n, hx, hspun⟩
      exact ⟨hf, x, n, hx.cons (.inl hc), hspun⟩
    · rename_i hc
      split at h
      · rename_i hi
        obtain ⟨w₁, hs, he⟩ := Except.map_eq_ok.mp h
        cases he
        obtain ⟨n, hn, hspun⟩ := spin_cases hs
        exact ⟨List.Sublist.refl _, fun x hx => .inl hx, .inr ⟨rfl, r, n, ⟨List.mem_cons_self,
          Bool.eq_false_of_not_eq_true hc, hi, [], rs, rfl, by simp⟩, hn, hspun⟩⟩
      · rename_i hi
        obtain ⟨⟨rs₁, w₁, f⟩, hs, he⟩ := Except.map_eq_ok.mp h
        cases he
        obtain ⟨h1, h2, h3⟩ := ih hs
        refine ⟨h1.cons_cons _, List.forall_mem_cons.mpr ⟨.inl List.mem_cons_self, ?_⟩,
          h3.imp_right ?_⟩
        · exact fun x hx => (h2 x hx).imp_left (List.mem_cons_of_mem _)
        · rintro ⟨hf, x, n, hx, hspun⟩
          exact ⟨hf, x, n, hx.cons (.inr (Bool.eq_false_of_not_eq_true hi)), hspun⟩

/-- `r` is served in `w₂`, and `rules` are left. It was interested when its turn
came to be polled, and `poll` says that it is ready; all that has happened besides
are walks over other rules. -/
inductive Due (rs : List (FDRule ω)) (answers : List Answer) (w : ω) (r : FDRule ω)
    (rules : List (FDRule ω)) (w₂ : ω) : Prop
  | intro {pre₀ post₀ pre post ks : List (FDRule ω)} {pollfds : List PollFd} {p : PollFd}
      {w₀ w₁ : ω}
      (split : rs = pre₀ ++ r :: post₀) (left : rules = ks ++ r :: post)
      (polled : setUp rs w = .ok (pre ++ r :: post, pollfds, w₁))
      (before : Pass Live Dead pre₀ w pre w₀) (live : Live r w₀ w₀)
      (interest : r.interest w₀ = true) (after : Pass Live Dead post₀ w₀ post w₁)
      (said : (poll pollfds answers)[pre.length]? = some p)
      (ready : p.verdict r.direction = .ready)
      (first : ∀ (k : Nat) (x : FDRule ω) (p : PollFd), pre[k]? = some x →
        (poll pollfds answers)[k]? = some p → p.verdict x.direction ≠ .ready)
      (walk : Walk (poll pollfds answers) 0 pre w₁ ks w₂)

/-- From what the loop over the results says of `r` to all that is known of it. -/
theorem Reached.due {rs pre ks post : List (FDRule ω)} {r : FDRule ω} {pollfds : List PollFd}
    {answers : List Answer} {w w₁ w₂ : ω}
    (hs : setUp rs w = .ok (pre ++ r :: post, pollfds, w₁))
    (h : Reached (poll pollfds answers) 0 w₁ pre ks r w₂) :
    Due rs answers w r (ks ++ r :: post) w₂ := by
  obtain ⟨p, pre₀, post₀, w₀, hp, hrs, hpre, hpost, hlive, hev⟩ := setUp_asked hs
  obtain ⟨q, hq, hv⟩ := h.ready
  rw [Nat.zero_add] at hq
  have hi : r.interest w₀ = true := by
    by_contra hn
    rw [poll_getElem, hp, Option.map_some, Option.some.injEq] at hq
    subst hq
    rw [if_neg hn] at hev
    exact PollFd.asked_of_ready hv hev
  refine .intro hrs rfl hs hpre hlive hi hpost hq hv (fun k x p' hx hp' => ?_) h.walk
  exact h.first k x p' hx (by rw [Nat.zero_add]; exact hp')

/-- What is left of the loop after a call without an interested rule that has
no descriptor. -/
inductive Polled (loop : EventLoop ω) (answers : List Answer) (w : ω) :
    Result → List (FDRule ω) → ω → Prop
  | exit {live : List (FDRule ω)} {pollfds : List PollFd} {w' : ω} :
      setUp loop.fdRules w = .ok (live, pollfds, w') → (∀ p ∈ pollfds, p.events = 0) →
      Polled loop answers w .Exit live w'
  | timeout {live : List (FDRule ω)} {pollfds : List PollFd} {w' : ω} :
      setUp loop.fdRules w = .ok (live, pollfds, w') → (∃ p ∈ pollfds, p.events ≠ 0) →
      Polled loop answers w .Timeout live w'
  | walked {live rules : List (FDRule ω)} {pollfds : List PollFd} {w₁ w' : ω} :
      setUp loop.fdRules w = .ok (live, pollfds, w₁) → (∃ p ∈ pollfds, p.events ≠ 0) →
      Walk (poll pollfds answers) 0 live w₁ rules w' → Polled loop answers w .Success rules w'
  | served {r : FDRule ω} {rules : List (FDRule ω)} {w₂ w' : ω} :
      Due loop.fdRules answers w r rules w₂ → r.callback w₂ = .ok w' → ¬ Stuck r w₂ w' →
      Polled loop answers w .Success rules w'

/-- Why a rule on a descriptor is not there after a call: it was dead when its turn
came to be polled, or `poll` says that it failed. -/
inductive Gone (loop : EventLoop ω) (answers : List Answer) (w : ω) (r : FDRule ω) : Prop
  | dead {pre post ks : List (FDRule ω)} {w₁ w₂ : ω} : loop.fdRules = pre ++ r :: post →
      Pass Live Dead pre w ks w₁ → Dead r w₁ w₂ → Gone loop answers w r
  | failed {live : List (FDRule ω)} {pollfds : List PollFd} {w₁ w₂ w₃ : ω} :
      setUp loop.fdRules w = .ok (live, pollfds, w₁) →
      Said Failed (poll pollfds answers) 0 live r w₂ w₃ → Gone loop answers w r

/-- After the setting up. -/
theorem setUp_gone {loop : EventLoop ω} {answers : List Answer} {live : List (FDRule ω)}
    {pollfds : List PollFd} {w w' : ω} (h : setUp loop.fdRules w = .ok (live, pollfds, w'))
    {r : FDRule ω} (hr : r ∈ loop.fdRules) : r ∈ live ∨ Gone loop answers w r := by
  rcases (setUp_pass h).1.dropped hr with hl | ⟨pre, post, ks, w₁, w₂, hsplit, hpre, hd⟩
  · exact .inl hl
  · exact .inr (.dead hsplit hpre hd)

theorem Polled.gone {loop : EventLoop ω} {answers : List Answer} {w w' : ω} {res : Result}
    {rules : List (FDRule ω)} (h : Polled loop answers w res rules w') {r : FDRule ω}
    (hr : r ∈ loop.fdRules) : r ∈ rules ∨ Gone loop answers w r := by
  cases h with
  | exit hs _ => exact setUp_gone hs hr
  | timeout hs _ => exact setUp_gone hs hr
  | walked hs _ hwalk =>
    refine (setUp_gone hs hr).elim (fun hl => ?_) .inr
    rcases hwalk.dropped hl with hk | ⟨pre, post, ks, w₁, w₂, -, -, hd⟩
    · exact .inl hk
    · exact .inr (.failed hs hd)
  | served hdue _ _ =>
    obtain ⟨-, rfl, hs, -, -, -, -, -, -, -, hwalk⟩ := hdue
    refine (setUp_gone hs hr).elim (fun hl => ?_) .inr
    rcases List.mem_append.mp hl with hl | hl
    · rcases hwalk.dropped hl with hk | ⟨pre, post, ks, w₁, w₂, -, -, hd⟩
      · exact .inl (List.mem_append_left _ hk)
      · exact .inr (.failed hs (hd.append _))
    · exact .inl (List.mem_append_right _ hl)

/-- What one call does. -/
theorem wait_cases {loop loop' : EventLoop ω} {answers : List Answer} {w w' : ω} {res : Result}
    (h : loop.waitNextEvent answers w = .ok (res, loop', w')) :
    loop'.ruleCategories = loop.ruleCategories ∧ loop'.made = loop.made ∧
    loop'.nonFdRules.Sublist loop.nonFdRules ∧
    (∀ r ∈ loop.nonFdRules, r ∈ loop'.nonFdRules ∨ r.cancelRequested w = true) ∧
    ((res = .Success ∧ loop'.fdRules = loop.fdRules ∧ ∃ r n, First loop.nonFdRules w r ∧
        n ≤ 128 ∧ Spun r n w w') ∨ Polled loop answers w res loop'.fdRules w') := by
  obtain ⟨⟨non, w₀, fired⟩, h1, hcall⟩ := Except.bind_eq_ok.mp h
  clear h
  obtain ⟨hsub, hout, ⟨rfl, rfl⟩ | ⟨rfl, hspun⟩⟩ := serveNonFd_cases h1
  · dsimp only at hcall
    rw [if_neg Bool.false_ne_true] at hcall
    obtain ⟨⟨live, pollfds, w₁⟩, h2, h⟩ := Except.bind_eq_ok.mp hcall
    dsimp only at h
    have hasked : ¬ (pollfds.all (·.events == 0)) = true → ∃ p ∈ pollfds, p.events ≠ 0 := by
      intro hn
      simpa using hn
    split at h
    · rename_i hall
      cases h
      exact ⟨rfl, rfl, hsub, hout, .inr (.exit h2 (by simpa using hall))⟩
    · rename_i hall
      split at h
      · cases h
        exact ⟨rfl, rfl, hsub, hout, .inr (.timeout h2 (hasked hall))⟩
      · obtain ⟨⟨rules, w₂⟩, h3, he⟩ := Except.map_eq_ok.mp h
        cases he
        refine ⟨rfl, rfl, hsub, hout, .inr ?_⟩
        rcases results_cases h3 with
          hwalk | ⟨pre, ks, r, post, w₃, rfl, rfl, hreach, hcall, hstuck⟩
        · exact .walked h2 (hasked hall) hwalk
        · exact .served (hreach.due h2) hcall hstuck
  · dsimp only at hcall
    rw [if_pos rfl] at hcall
    cases hcall
    exact ⟨rfl, rfl, hsub, hout, .inl ⟨rfl, rfl, hspun⟩⟩

theorem poll_length (pollfds : List PollFd) (answers : List Answer) :
    (poll pollfds answers).length = pollfds.length := by
  induction pollfds generalizing answers with
  | nil => rfl
  | cons p ps ih => simp [poll, ih]

/-- Why a call throws: a rule could not be dropped, or the one that was due
throws or is stuck. -/
theorem wait_error {loop : EventLoop ω} {answers : List Answer} {w : ω} {e : Thrown}
    (hnon : loop.nonFdRules = []) (h : loop.waitNextEvent answers w = .error e) :
    (∃ r ∈ loop.fdRules, Broken r answers e) ∨
    ∃ r rules w₂, Due loop.fdRules answers w r rules w₂ ∧ Fails r w₂ e := by
  unfold waitNextEvent at h
  rw [hnon, serveNonFd] at h
  change (setUp loop.fdRules w).bind _ = _ at h
  cases hs : setUp loop.fdRules w with
  | error e =>
    rw [hs] at h
    cases h
    exact .inl (setUp_error hs)
  | ok q =>
    obtain ⟨live, pollfds, w₁⟩ := q
    obtain ⟨hpass, hlen⟩ := setUp_pass hs
    rw [hs] at h
    change (if _ then _ else _) = _ at h
    split at h
    · cases h
    · dsimp only at h
      split at h
      · cases h
      · cases hr : results loop.ruleCategories (poll pollfds answers) answers live 0 w₁ with
        | ok q =>
          rw [hr] at h
          cases h
        | error e =>
          rw [hr] at h
          cases h
          rcases results_error (by rw [poll_length, hlen]; omega) hr with
            ⟨r, hmem, hb⟩ | ⟨pre, ks, r, post, w₂, rfl, hreach, hfail⟩
          · exact .inl ⟨r, hpass.sublist.subset hmem, hb⟩
          · exact .inr ⟨r, _, w₂, hreach.due hs, hfail⟩

/-- A busy wait is reported for a rule that was due and is stuck. -/
theorem wait_busy {loop : EventLoop ω} {answers : List Answer} {w : ω} {what : String}
    (hnon : loop.nonFdRules = []) (h : loop.waitNextEvent answers w = .error (.busyWait what)) :
    ∃ r rules w₂ w', Due loop.fdRules answers w r rules w₂ ∧ r.callback w₂ = .ok w' ∧
      Stuck r w₂ w' := by
  rcases wait_error hnon h with ⟨r, -, hb⟩ | ⟨r, rules, w₂, hdue, hf⟩
  · rcases hb with ⟨_, _, -, he⟩ | ⟨-, he⟩
    · cases he
    · cases he
  · rcases hf with ⟨_, -, he⟩ | ⟨w', hcall, hstuck⟩
    · cases he
    · exact ⟨r, rules, w₂, w', hdue, hcall, hstuck⟩

/-! ## What is true of the answers -/

/-- `P` holds of what `poll` says of the rule `handle`, in the world that is
polled. -/
def Tells (loop : EventLoop ω) (answers : List Answer) (w : ω) (handle : Nat)
    (P : PollFd → ω → Prop) : Prop :=
  ∀ (live : List (FDRule ω)) pollfds w', setUp loop.fdRules w = .ok (live, pollfds, w') →
    ∀ (k : Nat) (r : FDRule ω) (p : PollFd), live[k]? = some r → r.handle = handle →
      (poll pollfds answers)[k]? = some p → P p w'

instance (loop : EventLoop ω) (answers : List Answer) (w : ω) (handle : Nat)
    (P : PollFd → ω → Prop) [hP : ∀ p x, Decidable (P p x)] :
    Decidable (Tells loop answers w handle P) :=
  match h : setUp loop.fdRules w with
  | .error _ => .isTrue fun _ _ _ hs => by
    rw [h] at hs
    cases hs
  | .ok (live, pollfds, w') =>
    decidable_of_iff (∀ q ∈ live.zip (poll pollfds answers), q.1.handle = handle → P q.2 w')
      ⟨fun hall _ _ _ hs k r p hk hhandle hp => by
        rw [h] at hs
        cases hs
        exact hall (r, p) (List.mem_of_getElem? (List.getElem?_zip_eq_some.mpr ⟨hk, hp⟩)) hhandle,
      fun ht q hq hhandle => by
        obtain ⟨k, hk⟩ := List.mem_iff_getElem?.mp hq
        obtain ⟨hr, hp⟩ := List.getElem?_zip_eq_some.mp hk
        exact ht live _ w' h k q.1 q.2 hr hhandle hp⟩

end EventLoop
end StreamSocket.L2
