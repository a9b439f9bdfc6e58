import QubitConcurrent.Services.RayonEnd
import QubitConcurrent.Services.ThreadPerTaskEnd
import QubitConcurrent.Services.TokioEnd
import QubitConcurrent.ThreadPool.Ending

/-!
# Four domains behind one facade

`ExecutionServices` is four services side by side: a thread pool for blocking tasks, a Rayon
service for computations, and two services on a Tokio runtime. It has no state of its own. A
run of it is any interleaving of runs of the four, whoever their users are – a call of
`shutdown` or `shutdown_now` on the facade is one on each domain, in order, and nothing more –
together with the two things the facade is asked about all of them: `is_terminated`, which
asks the domains one after the other until one of them says no, and `await_termination`, which
waits for them one after the other.

Waiting for four things in a row is sound if each of them lasts. That it does is proved for
each service alone (`QubitConcurrent.Services.Orderly`,
`QubitConcurrent.ThreadPool.ended_for_good`); the facade follows.
-/

namespace QubitConcurrent

namespace Services

open ThreadPool (Pool)

variable {Job R E W : Type}

/-! ### The facade -/

/-- Where a future of `ExecutionServices::await_termination` stands: which domain it waits
for, and which call or future of that domain it waits on, if it was made yet. -/
inductive AwaitAll
  /-- `self.blocking.await_termination().await`. -/
  | blocking (call : Option ℕ)
  /-- `self.cpu.await_termination().await`. -/
  | cpu (waiter : Option ℕ)
  /-- `self.tokio_blocking.await_termination().await`. -/
  | tokioBlocking (waiter : Option ℕ)
  /-- `self.io.await_termination().await`. -/
  | io (waiter : Option ℕ)
  /-- The future is ready. -/
  | completed
  /-- The future was dropped. -/
  | dropped
  deriving DecidableEq, Repr

/-- Where a call of `ExecutionServices::is_terminated` stands: which domain it asks. -/
inductive QueryAll
  /-- `self.blocking.is_terminated()` is to come. -/
  | blocking
  /-- Inside `self.cpu.is_terminated()`. -/
  | cpu (query : Query)
  /-- Inside `self.tokio_blocking.is_terminated()`. -/
  | tokioBlocking (query : Query)
  /-- Inside `self.io.is_terminated()`. -/
  | io (query : Query)
  /-- Returned. -/
  | answered (answer : Bool)
  deriving DecidableEq, Repr

/-- `ExecutionServices`, and the calls made on it. -/
structure ExecutionServices (Job R E W : Type) where
  /-- `blocking`. -/
  blocking : Pool Job
  /-- `cpu`. -/
  cpu : Rayon.Service R E W
  /-- `tokio_blocking`. -/
  tokioBlocking : Tokio.Service R E
  /-- `io`. -/
  io : Tokio.Service R E
  /-- The futures of `await_termination` handed out so far. -/
  awaits : List AwaitAll
  /-- The calls of `is_terminated` made so far. -/
  queries : List QueryAll

/-- The actions of the facade. -/
inductive ExecutionAction (Job R E : Type)
  /-- Somebody takes a step in the blocking domain. -/
  | blocking (a : ThreadPool.Action Job)
  /-- Somebody takes a step in the CPU domain. -/
  | cpu (a : Rayon.Action R E)
  /-- Somebody takes a step in the Tokio blocking domain. -/
  | tokioBlocking (a : Tokio.Action R E)
  /-- Somebody takes a step in the IO domain. -/
  | io (a : Tokio.Action R E)
  /-- A user calls `await_termination`. -/
  | await
  /-- A future of `await_termination` takes its next step. -/
  | awaitNext (future : ℕ)
  /-- A future of `await_termination` is dropped. -/
  | awaitDrop (future : ℕ)
  /-- A user calls `is_terminated`. -/
  | isTerminated
  /-- A call of `is_terminated` takes its next step. -/
  | queryNext (query : ℕ)

/-- What follows on a step of a call inside the `is_terminated` of one domain: the next domain
is asked only if this one has answered `true`. -/
def QueryAll.andThen (here : Query → QueryAll) (next : QueryAll) : Query → QueryAll
  | .answered true => next
  | .answered false => .answered false
  | query => here query

namespace ExecutionServices

/-- A call of `is_terminated` takes its next step. -/
def ask (s : ExecutionServices Job R E W) : QueryAll → Option QueryAll
  | .blocking =>
    some (if s.blocking.state.isTerminated then .cpu .loadShutdown else .answered false)
  | .cpu query =>
    some (.andThen .cpu (.tokioBlocking .loadShutdown) (query.look s.cpu.toCore))
  | .tokioBlocking query =>
    some (.andThen .tokioBlocking (.io .loadShutdown) (query.look s.tokioBlocking.toCore))
  | .io query => some (.andThen .io (.answered true) (query.look s.io.toCore))
  | .answered _ => none

/-- A future of `await_termination` moves on. -/
def setAwait (s : ExecutionServices Job R E W) (k : ℕ) (f : AwaitAll) :
    ExecutionServices Job R E W :=
  { s with awaits := s.awaits.set k f }

section Step

variable [DecidableEq Job]

/-- A future of `await_termination` takes its next step: it makes a call or a future in the
domain it has come to, or finds that it has returned. -/
def awaitNext (s : ExecutionServices Job R E W) (k : ℕ) : AwaitAll →
    Option (ExecutionServices Job R E W)
  | .blocking none =>
    (ThreadPool.step s.blocking .waitForTermination).map fun b =>
      { s with blocking := b }.setAwait k (.blocking (some s.blocking.calls.length))
  | .blocking (some call) =>
    match s.blocking.calls[call]? with
    | some (.returned .waitForTermination) => some (s.setAwait k (.cpu none))
    | _ => none
  | .cpu none =>
    (s.cpu.step .await).map fun c =>
      { s with cpu := c }.setAwait k (.cpu (some s.cpu.waiters.length))
  | .cpu (some waiter) =>
    if s.cpu.waiters[waiter]? = some .returned then some (s.setAwait k (.tokioBlocking none))
    else none
  | .tokioBlocking none =>
    (s.tokioBlocking.step Tokio.Task.pollCallable .await).map fun t =>
      { s with tokioBlocking := t }.setAwait k
        (.tokioBlocking (some s.tokioBlocking.waiters.length))
  | .tokioBlocking (some waiter) =>
    if s.tokioBlocking.waiters[waiter]? = some .returned then some (s.setAwait k (.io none))
    else none
  | .io none =>
    (s.io.step Tokio.Task.pollFuture .await).map fun t =>
      { s with io := t }.setAwait k (.io (some s.io.waiters.length))
  | .io (some waiter) =>
    if s.io.waiters[waiter]? = some .returned then some (s.setAwait k .completed) else none
  | .completed | .dropped => none

/-- One step of the facade. -/
def step (s : ExecutionServices Job R E W) :
    ExecutionAction Job R E → Option (ExecutionServices Job R E W)
  | .blocking a => (ThreadPool.step s.blocking a).map fun b => { s with blocking := b }
  | .cpu a => (s.cpu.step a).map fun c => { s with cpu := c }
  | .tokioBlocking a =>
    (s.tokioBlocking.step Tokio.Task.pollCallable a).map fun t => { s with tokioBlocking := t }
  | .io a => (s.io.step Tokio.Task.pollFuture a).map fun t => { s with io := t }
  | .await => some { s with awaits := s.awaits ++ [.blocking none] }
  | .awaitNext k => (s.awaits[k]?).bind (s.awaitNext k)
  | .awaitDrop k =>
    match s.awaits[k]? with
    | some .completed | some .dropped | none => none
    | some _ => some (s.setAwait k .dropped)
  | .isTerminated => some { s with queries := s.queries ++ [.blocking] }
  | .queryNext k =>
    ((s.queries[k]?).bind s.ask).map fun query => { s with queries := s.queries.set k query }

end Step

/-- What `ExecutionServices::is_terminated` answers, when nobody interferes. -/
def isTerminated (s : ExecutionServices Job R E W) : Bool :=
  s.blocking.state.isTerminated && s.cpu.isTerminated && s.tokioBlocking.isTerminated &&
    s.io.isTerminated

end ExecutionServices

/-- **The machine of the facade.** -/
def executionMachine (Job R E W : Type) [DecidableEq Job] :
    Machine (ExecutionServices Job R E W) (ExecutionAction Job R E) where
  init s := (ThreadPool.machine Job).init s.blocking ∧ (Rayon.machine R E W).init s.cpu ∧
    (Tokio.executorMachine R E).init s.tokioBlocking ∧ (Tokio.ioExecutorMachine R E).init s.io ∧
    s.awaits = [] ∧ s.queries = []
  step := ExecutionServices.step

/-! ### What the facade does to its domains -/

section Facade

variable [DecidableEq Job] {s s' t : ExecutionServices Job R E W}

/-- **A step of the facade is one of each domain, or none.** -/
structure Projects (s s' : ExecutionServices Job R E W) : Prop where
  /-- In the blocking domain. -/
  blocking : s'.blocking = s.blocking ∨
    ∃ a, (ThreadPool.machine Job).step s.blocking a = some s'.blocking
  /-- In the CPU domain. -/
  cpu : s'.cpu = s.cpu ∨ ∃ a, (Rayon.machine R E W).step s.cpu a = some s'.cpu
  /-- In the Tokio blocking domain. -/
  tokioBlocking : s'.tokioBlocking = s.tokioBlocking ∨
    ∃ a, (Tokio.executorMachine R E).step s.tokioBlocking a = some s'.tokioBlocking
  /-- In the IO domain. -/
  io : s'.io = s.io ∨ ∃ a, (Tokio.ioExecutorMachine R E).step s.io a = some s'.io

/-- A step that leaves the domains alone. -/
theorem Projects.same (hblocking : s'.blocking = s.blocking) (hcpu : s'.cpu = s.cpu)
    (htokio : s'.tokioBlocking = s.tokioBlocking) (hio : s'.io = s.io) : Projects s s' :=
  ⟨Or.inl hblocking, Or.inl hcpu, Or.inl htokio, Or.inl hio⟩

/-- A future of `await_termination` makes no step in a domain but to wait for it. -/
theorem projects_awaitNext {k : ℕ} {f : AwaitAll} (hstep : s.awaitNext k f = some s') :
    Projects s s' := by
  rw [ExecutionServices.awaitNext.eq_def] at hstep
  split at hstep
  · obtain ⟨b, hb, rfl⟩ := Option.map_eq_some_iff.mp hstep
    exact ⟨Or.inr ⟨.waitForTermination, hb⟩, Or.inl rfl, Or.inl rfl, Or.inl rfl⟩
  · split at hstep
    · obtain rfl := Option.some.inj hstep
      exact .same rfl rfl rfl rfl
    · exact absurd hstep (by simp)
  · obtain ⟨c, hc, rfl⟩ := Option.map_eq_some_iff.mp hstep
    exact ⟨Or.inl rfl, Or.inr ⟨.await, hc⟩, Or.inl rfl, Or.inl rfl⟩
  · split_ifs at hstep
    obtain rfl := Option.some.inj hstep
    exact .same rfl rfl rfl rfl
  · obtain ⟨u, hu, rfl⟩ := Option.map_eq_some_iff.mp hstep
    exact ⟨Or.inl rfl, Or.inl rfl, Or.inr ⟨.await, hu⟩, Or.inl rfl⟩
  · split_ifs at hstep
    obtain rfl := Option.some.inj hstep
    exact .same rfl rfl rfl rfl
  · obtain ⟨u, hu, rfl⟩ := Option.map_eq_some_iff.mp hstep
    exact ⟨Or.inl rfl, Or.inl rfl, Or.inl rfl, Or.inr ⟨.await, hu⟩⟩
  · split_ifs at hstep
    obtain rfl := Option.some.inj hstep
    exact .same rfl rfl rfl rfl
  · exact absurd hstep (by simp)
  · exact absurd hstep (by simp)

/-- Every step of the facade is one of each domain, or none. -/
theorem projects_step {a : ExecutionAction Job R E} (hstep : s.step a = some s') :
    Projects s s' := by
  cases a with
  | blocking a =>
    obtain ⟨b, hb, rfl⟩ := Option.map_eq_some_iff.mp hstep
    exact ⟨Or.inr ⟨a, hb⟩, Or.inl rfl, Or.inl rfl, Or.inl rfl⟩
  | cpu a =>
    obtain ⟨c, hc, rfl⟩ := Option.map_eq_some_iff.mp hstep
    exact ⟨Or.inl rfl, Or.inr ⟨a, hc⟩, Or.inl rfl, Or.inl rfl⟩
  | tokioBlocking a =>
    obtain ⟨u, hu, rfl⟩ := Option.map_eq_some_iff.mp hstep
    exact ⟨Or.inl rfl, Or.inl rfl, Or.inr ⟨a, hu⟩, Or.inl rfl⟩
  | io a =>
    obtain ⟨u, hu, rfl⟩ := Option.map_eq_some_iff.mp hstep
    exact ⟨Or.inl rfl, Or.inl rfl, Or.inl rfl, Or.inr ⟨a, hu⟩⟩
  | await | isTerminated =>
    obtain rfl := Option.some.inj hstep
    exact .same rfl rfl rfl rfl
  | awaitNext k =>
    obtain ⟨f, -, hf⟩ := Option.bind_eq_some_iff.mp hstep
    exact projects_awaitNext hf
  | awaitDrop k =>
    simp only [ExecutionServices.step] at hstep
    split at hstep
    · exact absurd hstep (by simp)
    · exact absurd hstep (by simp)
    · exact absurd hstep (by simp)
    · obtain rfl := Option.some.inj hstep
      exact .same rfl rfl rfl rfl
  | queryNext k =>
    obtain ⟨q, -, rfl⟩ := Option.map_eq_some_iff.mp hstep
    exact .same rfl rfl rfl rfl

/-- What a run of the facade comes to in each domain is what a run of the domain comes to. -/
structure Domains (s : ExecutionServices Job R E W) : Prop where
  /-- In the blocking domain. -/
  blocking : (ThreadPool.machine Job).Reach s.blocking
  /-- In the CPU domain. -/
  cpu : (Rayon.machine R E W).Reach s.cpu
  /-- In the Tokio blocking domain. -/
  tokioBlocking : (Tokio.executorMachine R E).Reach s.tokioBlocking
  /-- In the IO domain. -/
  io : (Tokio.ioExecutorMachine R E).Reach s.io

/-- A run of the facade is a run in each domain. -/
theorem domains_of_reach (hs : (executionMachine Job R E W).Reach s) : Domains s where
  blocking := by
    refine hs.simulate (N := ThreadPool.machine Job) (·.blocking) ?_ ?_
    · exact fun _ hinit => hinit.1
    · exact fun _ _ _ _ _ hstep =>
        (projects_step hstep).blocking.imp_right fun ⟨a, ha⟩ => ⟨a, trivial, ha⟩
  cpu := by
    refine hs.simulate (N := Rayon.machine R E W) (·.cpu) ?_ ?_
    · exact fun _ hinit => hinit.2.1
    · exact fun _ _ _ _ _ hstep =>
        (projects_step hstep).cpu.imp_right fun ⟨a, ha⟩ => ⟨a, trivial, ha⟩
  tokioBlocking := by
    refine hs.simulate (N := Tokio.executorMachine R E) (·.tokioBlocking) ?_ ?_
    · exact fun _ hinit => hinit.2.2.1
    · exact fun _ _ _ _ _ hstep =>
        (projects_step hstep).tokioBlocking.imp_right fun ⟨a, ha⟩ => ⟨a, trivial, ha⟩
  io := by
    refine hs.simulate (N := Tokio.ioExecutorMachine R E) (·.io) ?_ ?_
    · exact fun _ hinit => hinit.2.2.2.1
    · exact fun _ _ _ _ _ hstep =>
        (projects_step hstep).io.imp_right fun ⟨a, ha⟩ => ⟨a, trivial, ha⟩

/-- No domain that is terminated is terminated no more. -/
structure Steady (s s' : ExecutionServices Job R E W) : Prop where
  /-- The blocking domain. -/
  blocking : s.blocking.state.isTerminated = true → s'.blocking.state.isTerminated = true
  /-- The CPU domain. -/
  cpu : s.cpu.isTerminated = true → s'.cpu.isTerminated = true
  /-- The Tokio blocking domain. -/
  tokioBlocking : s.tokioBlocking.isTerminated = true → s'.tokioBlocking.isTerminated = true
  /-- The IO domain. -/
  io : s.io.isTerminated = true → s'.io.isTerminated = true

/-- Every step of the facade is steady. -/
theorem steady_step (hs : (executionMachine Job R E W).Reach s) {a : ExecutionAction Job R E}
    (hstep : s.step a = some s') : Steady s s' := by
  have hdomains := domains_of_reach hs
  have hprojects := projects_step hstep
  refine ⟨fun hterm => ?_, fun hterm => ?_, fun hterm => ?_, fun hterm => ?_⟩
  · rcases hprojects.blocking with heq | ⟨b, hb⟩
    · rwa [heq]
    · exact ThreadPool.isTerminated_step (ThreadPool.wf_of_reach hdomains.blocking) hterm hb
  · rcases hprojects.cpu with heq | ⟨b, hb⟩
    · rwa [heq]
    · exact ((Rayon.orderly R E W).advance _ b _ hdomains.cpu hb).isTerminated hterm
  · rcases hprojects.tokioBlocking with heq | ⟨b, hb⟩
    · rwa [heq]
    · exact ((Tokio.orderly Tokio.Task.pollCallable).advance _ b _ hdomains.tokioBlocking
        hb).isTerminated hterm
  · rcases hprojects.io with heq | ⟨b, hb⟩
    · rwa [heq]
    · exact ((Tokio.orderly Tokio.Task.pollFuture).advance _ b _ hdomains.io hb).isTerminated hterm

/-! ### What those who wait have learned -/

/-- What a future of `await_termination` has learned: the domains it has waited for are
terminated. -/
def AwaitAll.Knows (s : ExecutionServices Job R E W) : AwaitAll → Prop
  | .blocking _ | .dropped => True
  | .cpu _ => s.blocking.state.isTerminated = true
  | .tokioBlocking _ => s.blocking.state.isTerminated = true ∧ s.cpu.isTerminated = true
  | .io _ => s.blocking.state.isTerminated = true ∧ s.cpu.isTerminated = true ∧
      s.tokioBlocking.isTerminated = true
  | .completed => s.blocking.state.isTerminated = true ∧ s.cpu.isTerminated = true ∧
      s.tokioBlocking.isTerminated = true ∧ s.io.isTerminated = true

omit [DecidableEq Job] in
/-- What a future has learned stays true. -/
theorem AwaitAll.Knows.steady (h : Steady s s') {f : AwaitAll} (hf : f.Knows s) : f.Knows s' := by
  cases f with
  | blocking call | dropped => trivial
  | cpu waiter => exact h.blocking hf
  | tokioBlocking waiter => exact ⟨h.blocking hf.1, h.cpu hf.2⟩
  | io waiter => exact ⟨h.blocking hf.1, h.cpu hf.2.1, h.tokioBlocking hf.2.2⟩
  | completed =>
    exact ⟨h.blocking hf.1, h.cpu hf.2.1, h.tokioBlocking hf.2.2.1, h.io hf.2.2.2⟩

/-- A future that is returned knows that its domain is terminated. -/
theorem isTerminated_of_returned {σ α : Type} {M : Machine σ α} {core : σ → Core Await}
    {admitted : σ → ℕ} {replies : σ → List Reply} (h : Orderly M core admitted replies) {u : σ}
    (hu : M.Reach u) {k : ℕ} (hk : (core u).waiters[k]? = some .returned) :
    (core u).isTerminated = true :=
  (h.honest hu).reported (Or.inr ⟨_, List.mem_of_getElem? hk, rfl⟩)

/-- **A future learns what it has waited for.** -/
theorem knows_awaitNext (hs : (executionMachine Job R E W).Reach s) {k : ℕ} {f : AwaitAll}
    (hf : f.Knows s) (hstep : s.awaitNext k f = some s') :
    ∃ f' : AwaitAll, s'.awaits = s.awaits.set k f' ∧ f'.Knows s := by
  have hdomains := domains_of_reach hs
  rw [ExecutionServices.awaitNext.eq_def] at hstep
  split at hstep
  · obtain ⟨b, -, rfl⟩ := Option.map_eq_some_iff.mp hstep
    exact ⟨_, rfl, trivial⟩
  · split at hstep
    · next hcall =>
      obtain rfl := Option.some.inj hstep
      refine ⟨_, rfl, ThreadPool.isTerminated_of_reported hdomains.blocking ?_⟩
      exact List.any_eq_true.mpr ⟨_, List.mem_of_getElem? hcall, rfl⟩
    · exact absurd hstep (by simp)
  · obtain ⟨c, -, rfl⟩ := Option.map_eq_some_iff.mp hstep
    exact ⟨_, rfl, hf⟩
  · split_ifs at hstep with hwaiter
    obtain rfl := Option.some.inj hstep
    exact ⟨_, rfl, hf, isTerminated_of_returned (Rayon.orderly R E W) hdomains.cpu hwaiter⟩
  · obtain ⟨u, -, rfl⟩ := Option.map_eq_some_iff.mp hstep
    exact ⟨_, rfl, hf⟩
  · split_ifs at hstep with hwaiter
    obtain rfl := Option.some.inj hstep
    exact ⟨_, rfl, hf.1, hf.2, isTerminated_of_returned
      (Tokio.orderly Tokio.Task.pollCallable) hdomains.tokioBlocking hwaiter⟩
  · obtain ⟨u, -, rfl⟩ := Option.map_eq_some_iff.mp hstep
    exact ⟨_, rfl, hf⟩
  · split_ifs at hstep with hwaiter
    obtain rfl := Option.some.inj hstep
    exact ⟨_, rfl, hf.1, hf.2.1, hf.2.2, isTerminated_of_returned
      (Tokio.orderly Tokio.Task.pollFuture) hdomains.io hwaiter⟩
  · exact absurd hstep (by simp)
  · exact absurd hstep (by simp)

/-- Over every run, what futures have learned is true. -/
theorem knows_of_reach (hs : (executionMachine Job R E W).Reach s) :
    ∀ f ∈ s.awaits, f.Knows s := by
  refine hs.invariant (I := fun s => ∀ f ∈ s.awaits, f.Knows s) ?_ ?_
  · rintro s ⟨-, -, -, -, hnil, -⟩
    simp [hnil]
  · intro s a s' hr hall _ hstep
    have hsteady := steady_step hr hstep
    have hold : ∀ f ∈ s.awaits, f.Knows s' := fun f hf => (hall f hf).steady hsteady
    cases a with
    | blocking a | cpu a | tokioBlocking a | io a | queryNext k =>
      obtain ⟨u, -, rfl⟩ := Option.map_eq_some_iff.mp hstep
      exact hold
    | isTerminated =>
      obtain rfl := Option.some.inj hstep
      exact hold
    | await =>
      obtain rfl := Option.some.inj hstep
      intro f hf
      rcases List.mem_append.mp hf with hbefore | hnew
      · exact hold f hbefore
      · rw [List.mem_singleton.mp hnew]
        trivial
    | awaitNext k =>
      obtain ⟨f, hf, hnext⟩ := Option.bind_eq_some_iff.mp hstep
      obtain ⟨f', hset, hknows⟩ := knows_awaitNext hr (hall f (List.mem_of_getElem? hf)) hnext
      intro g hg
      rw [hset] at hg
      rcases List.mem_or_eq_of_mem_set hg with hbefore | rfl
      · exact hold g hbefore
      · exact hknows.steady hsteady
    | awaitDrop k =>
      change ExecutionServices.step s (.awaitDrop k) = some s' at hstep
      simp only [ExecutionServices.step] at hstep
      split at hstep
      · exact absurd hstep (by simp)
      · exact absurd hstep (by simp)
      · exact absurd hstep (by simp)
      · obtain rfl := Option.some.inj hstep
        intro g hg
        rcases List.mem_or_eq_of_mem_set hg with hbefore | rfl
        · exact hold g hbefore
        · trivial

/-- Whether a call of `is_terminated` was told `false`. -/
def QueryAll.isDenied : QueryAll → Bool
  | .answered answer | .cpu (.answered answer) | .tokioBlocking (.answered answer)
  | .io (.answered answer) => !answer
  | _ => false

omit [DecidableEq Job] in
/-- A facade is terminated if its domains are. -/
theorem ExecutionServices.isTerminated_iff {s : ExecutionServices Job R E W} :
    s.isTerminated = true ↔ AwaitAll.completed.Knows s := by
  simp [isTerminated, AwaitAll.Knows, and_assoc]

/-- Where a domain that is terminated is asked, nobody is told `false`. -/
theorem isDenied_andThen {A : Type} {c : Core A} (hterm : c.isTerminated = true)
    {here : Query → QueryAll} (hhere : ∀ q, (here q).isDenied = (q == .answered false))
    {next : QueryAll} (hnext : next.isDenied = false) {q : Query}
    (hq : (here q).isDenied = false) :
    (QueryAll.andThen here next (q.look c)).isDenied = false := by
  rw [hhere, beq_eq_false_iff_ne] at hq
  have hlook := Query.look_of_isTerminated hterm hq
  generalize q.look c = q' at hlook
  cases q' with
  | loadShutdown | loadActive => exact hhere _
  | answered answer =>
    cases answer with
    | true => exact hnext
    | false => exact absurd rfl hlook

omit [DecidableEq Job] in
/-- A facade that is terminated tells nobody `false`. -/
theorem ask_of_isTerminated (hterm : s.isTerminated = true) {q q' : QueryAll}
    (hq : q.isDenied = false) (hstep : s.ask q = some q') : q'.isDenied = false := by
  obtain ⟨hblocking, hcpu, htokio, hio⟩ := ExecutionServices.isTerminated_iff.mp hterm
  have hanswered : ∀ answer : Bool, (!answer) = (Query.answered answer == .answered false) := by
    decide
  cases q with
  | blocking =>
    rw [ExecutionServices.ask, if_pos hblocking] at hstep
    obtain rfl := Option.some.inj hstep
    rfl
  | cpu query =>
    obtain rfl := Option.some.inj hstep
    refine isDenied_andThen hcpu (fun q => ?_) rfl hq
    cases q with
    | answered answer => exact hanswered answer
    | _ => rfl
  | tokioBlocking query =>
    obtain rfl := Option.some.inj hstep
    refine isDenied_andThen htokio (fun q => ?_) rfl hq
    cases q with
    | answered answer => exact hanswered answer
    | _ => rfl
  | io query =>
    obtain rfl := Option.some.inj hstep
    refine isDenied_andThen hio (fun q => ?_) rfl hq
    cases q with
    | answered answer => exact hanswered answer
    | _ => rfl
  | answered answer => exact absurd hstep (by simp [ExecutionServices.ask])

/-- A step that asks nothing leaves the calls of `is_terminated` alone. -/
theorem queries_awaitNext {k : ℕ} {f : AwaitAll} (hstep : s.awaitNext k f = some s') :
    s'.queries = s.queries := by
  rw [ExecutionServices.awaitNext.eq_def] at hstep
  split at hstep
  · obtain ⟨u, -, rfl⟩ := Option.map_eq_some_iff.mp hstep
    rfl
  · split at hstep
    · obtain rfl := Option.some.inj hstep
      rfl
    · exact absurd hstep (by simp)
  · obtain ⟨u, -, rfl⟩ := Option.map_eq_some_iff.mp hstep
    rfl
  · split_ifs at hstep
    obtain rfl := Option.some.inj hstep
    rfl
  · obtain ⟨u, -, rfl⟩ := Option.map_eq_some_iff.mp hstep
    rfl
  · split_ifs at hstep
    obtain rfl := Option.some.inj hstep
    rfl
  · obtain ⟨u, -, rfl⟩ := Option.map_eq_some_iff.mp hstep
    rfl
  · split_ifs at hstep
    obtain rfl := Option.some.inj hstep
    rfl
  · exact absurd hstep (by simp)
  · exact absurd hstep (by simp)

/-- The calls of `is_terminated` after the first `n` were not told `false`. -/
def ExecutionServices.Hopeful (n : ℕ) (s : ExecutionServices Job R E W) : Prop :=
  ∀ k q, n ≤ k → s.queries[k]? = some q → q.isDenied = false

/-- On a facade that is terminated, nobody is told `false`. -/
theorem hopeful_step {n : ℕ} (hterm : s.isTerminated = true) (hs : s.Hopeful n)
    {a : ExecutionAction Job R E} (hstep : s.step a = some s') : s'.Hopeful n := by
  cases a with
  | blocking a | cpu a | tokioBlocking a | io a =>
    obtain ⟨u, -, rfl⟩ := Option.map_eq_some_iff.mp hstep
    exact hs
  | await =>
    obtain rfl := Option.some.inj hstep
    exact hs
  | isTerminated =>
    obtain rfl := Option.some.inj hstep
    intro k q hk hq
    rcases getElem?_concat_cases hq with hold | ⟨-, rfl⟩
    · exact hs k q hk hold
    · rfl
  | awaitNext k =>
    obtain ⟨f, -, hnext⟩ := Option.bind_eq_some_iff.mp hstep
    rw [ExecutionServices.Hopeful, queries_awaitNext hnext]
    exact hs
  | awaitDrop k =>
    simp only [ExecutionServices.step] at hstep
    split at hstep
    · exact absurd hstep (by simp)
    · exact absurd hstep (by simp)
    · exact absurd hstep (by simp)
    · obtain rfl := Option.some.inj hstep
      exact hs
  | queryNext j =>
    obtain ⟨q', hq', rfl⟩ := Option.map_eq_some_iff.mp hstep
    obtain ⟨q, hj, hask⟩ := Option.bind_eq_some_iff.mp hq'
    intro k u hk hu
    rcases getElem?_set_cases hj hu with ⟨rfl, rfl⟩ | ⟨-, hold⟩
    · exact ask_of_isTerminated hterm (hs k q hk hj) hask
    · exact hs k u hk hold

/-- **Waiting for the domains one after the other is enough**: when a future of
`ExecutionServices::await_termination` is ready, the facade is terminated, and stays so, and
no later call of `is_terminated` answers `false`. -/
theorem completed_for_good (hs : (executionMachine Job R E W).Reach s)
    (hcompleted : .completed ∈ s.awaits) (hlater : (executionMachine Job R E W).Later s t) :
    t.isTerminated = true ∧
      ∀ k : ℕ, s.queries.length ≤ k → t.queries[k]? ≠ some (.answered false) := by
  have hterm : s.isTerminated = true :=
    ExecutionServices.isTerminated_iff.mpr (knows_of_reach hs _ hcompleted)
  have hhopeful : s.Hopeful s.queries.length := by
    intro k q hk hq
    rw [List.getElem?_eq_none hk] at hq
    exact absurd hq (by simp)
  have hboth : t.isTerminated = true ∧ t.Hopeful s.queries.length := by
    refine hlater.invariant (I := fun t => t.isTerminated = true ∧
      t.Hopeful s.queries.length) hs ?_ ⟨hterm, hhopeful⟩
    rintro u a u' hr ⟨hdown, hall⟩ hstep
    have hknows := ExecutionServices.isTerminated_iff.mp hdown
    exact ⟨ExecutionServices.isTerminated_iff.mpr (hknows.steady (steady_step hr hstep)),
      hopeful_step hdown hall hstep⟩
  refine ⟨hboth.1, fun k hk hfalse => ?_⟩
  exact absurd (hboth.2 k _ hk hfalse) (by simp [QueryAll.isDenied])

/-! ### Termination is stable -/

/-- **Termination is stable, and composes.** In every run of a thread pool, of a Rayon
service, of the two Tokio services and of a thread-per-task service: once `is_terminated` has
answered `true` the service is terminated in every later state; and once the service was shut
down nothing is accepted. So, in every interleaving of the domains of the facade: when a
future of `ExecutionServices::await_termination` is ready, `ExecutionServices::is_terminated`
is `true`, and stays so. -/
theorem termination_is_stable (Job R E W : Type) [DecidableEq Job] :
    (∀ s t : Pool Job, (ThreadPool.machine Job).Reach s → (ThreadPool.machine Job).Later s t →
      (s.reported = true → t.state.isTerminated = true ∧
        ∀ t', ThreadPool.step t .isTerminated = some t' →
          t' = t.addCall (.returned (.isTerminated true))) ∧
      (s.state.lifecycle ≠ .running → t.ledger.accepted = s.ledger.accepted ∧
        ∀ job spawned t', ThreadPool.step t (.submit job spawned) = some t' →
          t'.calls = t.calls ++ [.returned (.submit (.error .shutdown))])) ∧
    StableEnd (Rayon.machine R E W) (·.toCore) (·.tasks.length) (·.replies)
      (fun s a => s.submissionLock = some .submitChecking ∧ ∃ order, a = .holderNext order) ∧
    StableEnd (Tokio.executorMachine R E) (·.toCore) (·.tasks.length) (·.replies)
      (fun s a => s.submissionLock = some .submitChecking ∧ a = .holderNext) ∧
    StableEnd (Tokio.ioExecutorMachine R E) (·.toCore) (·.tasks.length) (·.replies)
      (fun s a => s.submissionLock = some .submitChecking ∧ a = .holderNext) ∧
    StableEnd (ThreadPerTask.machine R E W) (·.toCore) (·.tasks.length) (·.replies)
      (fun s a => s.submissionLock = some .submitChecking ∧ a = .holderNext) ∧
    ∀ s t : ExecutionServices Job R E W, (executionMachine Job R E W).Reach s →
      (executionMachine Job R E W).Later s t → .completed ∈ s.awaits →
      t.isTerminated = true ∧
        ∀ k : ℕ, s.queries.length ≤ k → t.queries[k]? ≠ some (.answered false) := by
  have htokio : ∀ poll : Tokio.Task.Poll R E,
      StableEnd (Tokio.machine poll) (·.toCore) (·.tasks.length) (·.replies)
        (fun s a => s.submissionLock = some .submitChecking ∧ a = .holderNext) := by
    intro poll
    refine (Tokio.orderly poll).stableEnd ?_
    rintro s a s' hshutdown ⟨hlock, rfl⟩ hstep
    obtain ⟨h, hholder, rfl⟩ := Option.map_eq_some_iff.mp hstep
    obtain rfl := Option.some.inj (hlock.symm.trans hholder)
    rw [Tokio.Service.holderNext, if_pos hshutdown]
    rfl
  refine ⟨fun s t hs hlater => ThreadPool.ended_for_good hs hlater, ?_, htokio _, htokio _, ?_,
    fun s t hs hlater hcompleted => completed_for_good hs hcompleted hlater⟩
  · refine (Rayon.orderly R E W).stableEnd ?_
    rintro s a s' hshutdown ⟨hlock, order, rfl⟩ hstep
    obtain ⟨h, hholder, hnext⟩ := Option.bind_eq_some_iff.mp hstep
    obtain rfl := Option.some.inj (hlock.symm.trans hholder)
    rw [Rayon.Service.holderNext, if_pos hshutdown] at hnext
    obtain rfl := Option.some.inj hnext
    rfl
  · refine (ThreadPerTask.orderly R E W).stableEnd ?_
    rintro s a s' hshutdown ⟨hlock, rfl⟩ hstep
    obtain ⟨h, hholder, rfl⟩ := Option.map_eq_some_iff.mp hstep
    obtain rfl := Option.some.inj (hlock.symm.trans hholder)
    rw [ThreadPerTask.Service.holderNext, if_pos hshutdown]
    rfl

/-- The domains are shut down one after the other while a future of
`ExecutionServices::await_termination` waits for them; when it is ready, all four are
terminated. A thread-per-task service is when its waiter returns. -/
theorem termination_is_stable_four :
    (∃ s : ExecutionServices ℕ Unit Unit Unit, .completed ∈ s.awaits ∧ s.isTerminated = true) ∧
    ∃ s : ThreadPerTask.Service Unit Unit Unit, .returned ∈ s.waiters ∧
      s.isTerminated = true := by
  have hstable := termination_is_stable ℕ Unit Unit Unit
  constructor
  · obtain ⟨s, hs, hp⟩ := Machine.exists_reachVia_of_exec
      (M := executionMachine ℕ Unit Unit Unit) (fun _ _ => True) (fun _ _ => true)
      (fun _ _ _ => trivial) (s := ⟨.ofSize 1, .new, .new, .new, [], []⟩)
      ⟨ThreadPool.machine_init_ofSize ℕ 0, rfl, rfl, rfl, rfl, rfl⟩
      [.await, .blocking .shutdown, .awaitNext 0, .awaitNext 0, .awaitNext 0, .cpu .shutdown,
        .cpu (.holderNext []), .cpu (.awaitNext 0), .cpu (.awaitNext 0), .awaitNext 0,
        .tokioBlocking .shutdown, .tokioBlocking .holderNext, .awaitNext 0,
        .tokioBlocking (.awaitNext 0), .tokioBlocking (.awaitNext 0), .awaitNext 0, .io .shutdown,
        .io .holderNext, .awaitNext 0, .io (.awaitNext 0), .io (.awaitNext 0), .awaitNext 0]
      (fun s => decide (.completed ∈ s.awaits)) (by decide)
    have hcompleted := of_decide_eq_true hp
    exact ⟨s, hcompleted, (hstable.2.2.2.2.2 s s hs .refl hcompleted).1⟩
  · obtain ⟨s, hs, hp⟩ := Machine.exists_reachVia_of_exec
      (M := ThreadPerTask.machine Unit Unit Unit) (fun _ _ => True) (fun _ _ => true)
      (fun _ _ _ => trivial) (s := .new) rfl
      [.wait, .shutdown, .holderNext, .waitNext 0, .waitNext 0, .waitNext 0]
      (fun s => decide (.returned ∈ s.waiters)) (by decide)
    have hreturned := of_decide_eq_true hp
    exact ⟨s, hreturned, (hstable.2.2.2.2.1.terminated s s hs
      (Or.inr ⟨_, hreturned, rfl⟩) .refl).1⟩

end Facade

end Services

end QubitConcurrent
