import QubitConcurrent.Lib.History
import QubitConcurrent.Lib.Stories

/-!
# What is promised of a task

Somebody takes tasks on, and promises three things: a task that was taken on waits until it is
started or cancelled; what was started runs until it is over, unless it is aborted; and once the
door is closed no task is taken on any more. This is all a user can rely on who does not know how
the tasks are queued, and on which threads they run.

The promise is a machine of its own (`QubitConcurrent.Contract.machine`). A component keeps it if a
map from its states to the states of this machine sends every step to one of its steps, or several,
or none at all (`QubitConcurrent.Contract.Keeps`). What the promise is worth is said once, for all
of them. An observer stands beside the component and writes down how the standing of a task has
changed in each step (`QubitConcurrent.Contract.watch`). What is written is a run of the promise, in
which every task has one of five histories, and none begins behind the closed door
(`QubitConcurrent.Contract.Keeps.records`).
-/

namespace QubitConcurrent

/-- How a task stands. -/
inductive Standing
  /-- It was not taken on. -/
  | unknown
  /-- It was taken on, and has not been started. -/
  | waiting
  /-- It was started. -/
  | running
  /-- It has run to its end. -/
  | over
  /-- It was cancelled before it was started, or aborted after that. -/
  | cancelled
  deriving DecidableEq, Repr

/-- Whether a task is done with. -/
def Standing.isFinal : Standing → Bool
  | .over | .cancelled => true
  | _ => false

/-- Whether a task that stands in one way can stand in another later. -/
def Standing.reaches : Standing → Standing → Bool
  | .unknown, _ => true
  | .waiting, r => r != .unknown
  | .running, r => r == .running || r.isFinal
  | .over, r => r == .over
  | .cancelled, r => r == .cancelled

/-- Whether the door is open, and how each task stands. -/
structure Contract (τ : Type) where
  /-- Whether tasks are taken on. -/
  isOpen : Bool
  /-- How each task stands. -/
  standing : τ → Standing

namespace Contract

variable {τ : Type}

/-- What can happen. -/
inductive Act (τ : Type)
  /-- A task is taken on. -/
  | accept (t : τ)
  /-- A task is started. -/
  | start (t : τ)
  /-- A task runs to its end. -/
  | finish (t : τ)
  /-- A task that waits is cancelled. -/
  | cancel (t : τ)
  /-- A task that runs is aborted. -/
  | abort (t : τ)
  /-- The door is closed. -/
  | close
  deriving DecidableEq, Repr

/-- Whom an act is about, if it is about a task. -/
def Act.task? : Act τ → Option τ
  | accept t | start t | finish t | cancel t | abort t => some t
  | close => none

/-- Whether an act is the end of a task that runs, and has not come to its end. -/
def Act.isAbort : Act τ → Bool
  | abort _ => true
  | _ => false

/-- Nobody is aborted. -/
def Act.Orderly (a : Act τ) : Prop := a.isAbort = false

/-- Where nothing has happened. -/
def new : Contract τ := ⟨true, fun _ => .unknown⟩

/-- Whether nothing is left to do: the door is closed, and every task that was taken on is done
with. -/
def Settled (c : Contract τ) : Prop :=
  c.isOpen = false ∧ ∀ t, c.standing t = .unknown ∨ (c.standing t).isFinal = true

variable [DecidableEq τ]

/-- A task goes from one standing to another. -/
def moves (c : Contract τ) (t : τ) (r r' : Standing) : Option (Contract τ) :=
  if c.standing t = r then some { c with standing := Function.update c.standing t r' } else none

/-- What an act does, where it is possible. -/
def step (c : Contract τ) : Act τ → Option (Contract τ)
  | .accept t => if c.isOpen then c.moves t .unknown .waiting else none
  | .start t => c.moves t .waiting .running
  | .finish t => c.moves t .running .over
  | .cancel t => c.moves t .waiting .cancelled
  | .abort t => c.moves t .running .cancelled
  | .close => some { c with isOpen := false }

/-- **The machine of the promise.** -/
def machine (τ : Type) [DecidableEq τ] : Machine (Contract τ) (Act τ) where
  init c := c = .new
  step := step

/-! ### What a step does -/

/-- Where an act takes the task it is about. -/
def Act.leads : Act τ → Standing × Standing
  | accept _ => (.unknown, .waiting)
  | start _ => (.waiting, .running)
  | finish _ => (.running, .over)
  | cancel _ => (.waiting, .cancelled)
  | abort _ => (.running, .cancelled)
  | close => (.unknown, .unknown)

/-- **The steps**: a task moves on, or the door is closed. -/
theorem step_cases {c c' : Contract τ} {a : Act τ} (h : c.step a = some c') :
    (a = .close ∧ c' = { c with isOpen := false }) ∨
      ∃ t, a.task? = some t ∧ c.standing t = a.leads.1 ∧ (a = .accept t → c.isOpen = true) ∧
        c' = { c with standing := Function.update c.standing t a.leads.2 } := by
  -- a task that goes from one standing to another
  have hmove : ∀ {t : τ} {r r' : Standing}, c.moves t r r' = some c' →
      c.standing t = r ∧ c' = { c with standing := Function.update c.standing t r' } := by
    intro t r r' hmoves
    rw [moves] at hmoves
    split_ifs at hmoves with hr
    exact ⟨hr, (Option.some.inj hmoves).symm⟩
  cases a with
  | close => exact Or.inl ⟨rfl, (Option.some.inj h).symm⟩
  | accept t =>
    rw [step] at h
    split_ifs at h with hopen
    obtain ⟨hr, hc'⟩ := hmove h
    exact Or.inr ⟨t, rfl, hr, fun _ => hopen, hc'⟩
  | start t | finish t | cancel t | abort t =>
    obtain ⟨hr, hc'⟩ := hmove h
    exact Or.inr ⟨t, rfl, hr, by simp, hc'⟩

/-- An act is possible where the task it is about stands where the act begins. -/
theorem step_eq {c : Contract τ} {a : Act τ} {t : τ} (ht : a.task? = some t)
    (hfrom : c.standing t = a.leads.1) (hopen : a = .accept t → c.isOpen = true) :
    c.step a = some { c with standing := Function.update c.standing t a.leads.2 } := by
  cases a with
  | close => exact absurd ht (by simp [Act.task?])
  | accept u =>
    obtain rfl := Option.some.inj ht
    rw [step, if_pos (hopen rfl)]
    exact if_pos hfrom
  | start u | finish u | cancel u | abort u =>
    obtain rfl := Option.some.inj ht
    exact if_pos hfrom

/-- Where nothing is left to do, nothing can happen any more that concerns a task. -/
theorem Settled.step {c c' : Contract τ} {a : Act τ} (hc : c.Settled) (h : c.step a = some c') :
    c' = c := by
  rcases step_cases h with ⟨-, rfl⟩ | ⟨t, ht, hfrom, hopen, -⟩
  · rw [← hc.1]
  · rcases hc.2 t with hunknown | hfinal
    · cases a with
      | accept u =>
        obtain rfl := Option.some.inj ht
        rw [hc.1] at hopen
        exact absurd (hopen rfl) (by simp)
      | close => exact absurd ht (by simp [Act.task?])
      | _ => exact absurd (hfrom.symm.trans hunknown) (by simp [Act.leads])
    · rw [hfrom] at hfinal
      revert hfinal
      cases a <;> simp [Act.leads, Standing.isFinal]

/-- Behind the closed door no task is taken on. -/
theorem unknown_step {c c' : Contract τ} {a : Act τ} (hclosed : c.isOpen = false)
    (h : c.step a = some c') :
    c'.isOpen = false ∧ ∀ t, c'.standing t = .unknown ↔ c.standing t = .unknown := by
  rcases step_cases h with ⟨-, rfl⟩ | ⟨t, ht, hfrom, hopen, rfl⟩
  · exact ⟨rfl, fun _ => Iff.rfl⟩
  · refine ⟨hclosed, fun u => ?_⟩
    rcases eq_or_ne u t with rfl | hne
    · simp only [Function.update_self, hfrom]
      cases a with
      | accept v =>
        obtain rfl := Option.some.inj ht
        rw [hclosed] at hopen
        exact absurd (hopen rfl) (by simp)
      | close => exact absurd ht (by simp [Act.task?])
      | _ => simp [Act.leads]
    · simp only [Function.update_of_ne hne]

/-- **The closed door**: once it is closed it stays closed, and who was not taken on before never
is. -/
theorem unknown_of_later {c c' : Contract τ} (h : (machine τ).Later c c')
    (hclosed : c.isOpen = false) :
    c'.isOpen = false ∧ ∀ t, c'.standing t = .unknown ↔ c.standing t = .unknown := by
  induction h with
  | refl => exact ⟨hclosed, fun _ => Iff.rfl⟩
  | tail _ hlast ih =>
    obtain ⟨a, ha⟩ := hlast
    obtain ⟨hclosed', hsame⟩ := unknown_step ih.1 ha
    exact ⟨hclosed', fun t => (hsame t).trans (ih.2 t)⟩

/-- **The end**: where nothing is left to do, nothing happens any more. -/
theorem eq_of_later {c c' : Contract τ} (h : (machine τ).Later c c') (hc : c.Settled) : c' = c := by
  induction h with
  | refl => rfl
  | tail _ hlast ih =>
    obtain ⟨a, ha⟩ := hlast
    obtain rfl := ih
    exact hc.step ha

/-! ### Histories -/

/-- What has happened to a task. -/
def actsOn (t : τ) (log : List (Act τ)) : List (Act τ) := log.filter fun a => a.task? = some t

/-- **The histories of a task**, by how it stands. -/
def Told (t : τ) : Standing → List (Act τ) → Prop
  | .unknown, acts => acts = []
  | .waiting, acts => acts = [.accept t]
  | .running, acts => acts = [.accept t, .start t]
  | .over, acts => acts = [.accept t, .start t, .finish t]
  | .cancelled, acts => acts = [.accept t, .cancel t] ∨ acts = [.accept t, .start t, .abort t]

/-- **A history of the promise**: what has happened, in order. -/
structure History (c : Contract τ) (log : List (Act τ)) : Prop where
  /-- Every task has a history that fits how it stands. -/
  told : ∀ t, Told t (c.standing t) (actsOn t log)
  /-- The door is closed where it was closed. -/
  closed : .close ∈ log ↔ c.isOpen = false
  /-- No task is taken on behind the closed door. -/
  ordered : Each (fun before a => .close ∈ before → ∀ t, a ≠ .accept t) log

/-- **A history goes on.** -/
theorem History.step {c c' : Contract τ} {log : List (Act τ)} (h : c.History log) {a : Act τ}
    (hstep : c.step a = some c') : c'.History (log ++ [a]) := by
  -- what was taken on last was taken on while the door was open
  have hordered : (∀ t, a = .accept t → c.isOpen = true) →
      Each (fun before a => .close ∈ before → ∀ t, a ≠ .accept t) (log ++ [a]) := by
    refine fun hopen => h.ordered.append (.cons (fun hclosed t heq => ?_) .nil)
    rw [List.append_nil, h.closed, hopen t heq] at hclosed
    exact absurd hclosed (by simp)
  have hacts : ∀ u, actsOn u (log ++ [a]) =
      actsOn u log ++ if a.task? = some u then [a] else [] := by
    intro u
    rw [actsOn, List.filter_append, List.filter_singleton]
    simp [actsOn]
  rcases step_cases hstep with ⟨rfl, rfl⟩ | ⟨t, ht, hfrom, hopen, rfl⟩
  · refine ⟨fun u => ?_, by simp, hordered fun u hu => absurd hu (by simp)⟩
    rw [hacts, if_neg (by simp [Act.task?]), List.append_nil]
    exact h.told u
  · refine ⟨fun u => ?_, ?_, hordered fun u hu => hopen ?_⟩
    · have htold := h.told u
      rw [hacts]
      rcases eq_or_ne u t with rfl | hne
      · rw [hfrom] at htold
        rw [if_pos ht]
        simp only [Function.update_self]
        cases a with
        | close => exact absurd ht (by simp [Act.task?])
        | cancel v =>
          obtain rfl := Option.some.inj ht
          exact Or.inl (congrArg (· ++ _) htold)
        | abort v =>
          obtain rfl := Option.some.inj ht
          exact Or.inr (congrArg (· ++ _) htold)
        | _ =>
          obtain rfl := Option.some.inj ht
          exact congrArg (· ++ _) htold
      · rw [if_neg (by rw [ht]; simpa using hne.symm), List.append_nil]
        simp only [Function.update_of_ne hne]
        exact htold
    · have hne : a ≠ .close := fun heq => absurd (heq ▸ ht) (by simp [Act.task?])
      rw [List.mem_append, h.closed, List.mem_singleton]
      simp [hne.symm]
    · rw [hu] at ht
      rw [hu, ← Option.some.inj ht]

/-- **A run goes on with a history.** -/
theorem History.exec : ∀ (acts : List (Act τ)) {c c' : Contract τ} {log : List (Act τ)},
    c.History log → (machine τ).exec (fun _ _ => true) c acts = some c' → c'.History (log ++ acts)
  | [], c, c', log, h, hrun => by
    obtain rfl := Option.some.inj hrun
    rwa [List.append_nil]
  | a :: acts, c, c', log, h, hrun => by
    rw [Machine.exec, if_pos rfl] at hrun
    obtain ⟨d, hstep, hrest⟩ := Option.bind_eq_some_iff.mp hrun
    have hnext := History.exec acts (h.step hstep) hrest
    rwa [List.append_assoc] at hnext

/-- Where nothing has happened there is nothing to tell. -/
theorem History.new : (new : Contract τ).History [] :=
  ⟨fun _ => rfl, by simp [Contract.new], .nil⟩

/-! ### Keeping the promise -/

section Keeps

variable {σ α : Type}

/-- One step of the promise, of those that are allowed. -/
def Goes (allowed : Act τ → Prop) (c c' : Contract τ) : Prop :=
  ∃ a, allowed a ∧ c.step a = some c'

/-- One task goes on, and nothing else happens. -/
theorem goes_of {allowed : Act τ → Prop} {c c' : Contract τ} {t : τ} (a : Act τ) (ha : allowed a)
    (ht : a.task? = some t) (hfrom : c.standing t = a.leads.1) (hto : c'.standing t = a.leads.2)
    (hopen : a = .accept t → c.isOpen = true) (hsame : c'.isOpen = c.isOpen)
    (hothers : ∀ u, u ≠ t → c'.standing u = c.standing u) : Goes allowed c c' := by
  have hstanding : c'.standing = Function.update c.standing t a.leads.2 := by
    funext u
    rcases eq_or_ne u t with rfl | hne
    · rw [Function.update_self, hto]
    · rw [Function.update_of_ne hne, hothers u hne]
  refine ⟨a, ha, (step_eq ht hfrom hopen).trans (congrArg some ?_)⟩
  rw [← hstanding, ← hsame]

/-- The door is closed. -/
theorem goes_close {allowed : Act τ → Prop} {c c' : Contract τ} (ha : allowed .close)
    (hclosed : c'.isOpen = false) (hstanding : c'.standing = c.standing) : Goes allowed c c' := by
  refine ⟨.close, ha, congrArg some ?_⟩
  rw [← hstanding, ← hclosed]

/-- How a task that was taken on goes on, one act at a time. -/
def Leads (allowed : Act τ → Prop) (t : τ) (r r' : Standing) : Prop :=
  ∃ a, allowed a ∧ a.task? = some t ∧ a ≠ .accept t ∧ a.leads = (r, r')

/-- **One task goes on**, as far as it may, and nothing else happens. -/
theorem goes_update {allowed : Act τ → Prop} {c : Contract τ} {t : τ} {r : Standing}
    (h : Relation.ReflTransGen (Leads allowed t) (c.standing t) r) :
    Relation.ReflTransGen (Goes allowed) c
      { c with standing := Function.update c.standing t r } := by
  induction h with
  | refl => rw [Function.update_eq_self]
  | tail _ hlast ih =>
    obtain ⟨a, ha, ht, haccept, hleads⟩ := hlast
    refine ih.tail ⟨a, ha, ?_⟩
    rw [step_eq ht (by simp [hleads]) fun heq => absurd heq haccept, hleads]
    simp only [Function.update_idem]

/-- **A component keeps the promise**, as `view` shows it: every step it takes is one step of the
promise that is `allowed`, or several, or none at all. -/
structure Keeps (M : Machine σ α) (allowed : Act τ → Prop) (view : σ → Contract τ) : Prop where
  /-- It begins where nothing has happened. -/
  init : ∀ s, M.init s → view s = .new
  /-- Every step is made of steps of the promise. -/
  step : ∀ s a s', M.Reach s → M.step s a = some s' →
    Relation.ReflTransGen (Goes allowed) (view s) (view s')

variable {M : Machine σ α} {allowed : Act τ → Prop} {view : σ → Contract τ}

/-- Whatever such a component comes to later, the promise comes to later. -/
theorem Keeps.later (h : Keeps M allowed view) {s s' : σ} (hs : M.Reach s) (hlater : M.Later s s') :
    (machine τ).Later (view s) (view s') := by
  induction hlater with
  | refl => exact .refl
  | @tail t t' hbefore hlast ih =>
    obtain ⟨a, ha⟩ := hlast
    have hchain := h.step t a t' (Machine.Later.reach hbefore hs) ha
    exact ih.trans (hchain.lift id fun _ _ ⟨b, _, hb⟩ => ⟨b, hb⟩)

/-- **What a kept promise is worth**: no task is taken on behind the closed door, then or later;
and where nothing is left to do, that is the end. -/
theorem Keeps.closed (h : Keeps M allowed view) {s s' : σ} (hs : M.Reach s)
    (hlater : M.Later s s') :
    ((view s).isOpen = false → (view s').isOpen = false ∧
      ∀ t, (view s').standing t = .unknown ↔ (view s).standing t = .unknown) ∧
    ((view s).Settled → view s' = view s) :=
  ⟨unknown_of_later (h.later hs hlater), eq_of_later (h.later hs hlater)⟩

end Keeps

/-! ### What is seen of a component -/

section Watch

/-- What happens to a task that stands in one way, and then in another. -/
def between (t : τ) : Standing → Standing → List (Act τ)
  | .unknown, .waiting => [.accept t]
  | .unknown, .running => [.accept t, .start t]
  | .unknown, .over => [.accept t, .start t, .finish t]
  | .unknown, .cancelled => [.accept t, .cancel t]
  | .waiting, .running => [.start t]
  | .waiting, .over => [.start t, .finish t]
  | .waiting, .cancelled => [.cancel t]
  | .running, .over => [.finish t]
  | .running, .cancelled => [.abort t]
  | _, _ => []

/-- What happens to some tasks, and to the door. -/
def news (known : List τ) (c c' : Contract τ) : List (Act τ) :=
  (known.flatMap fun t => between t (c.standing t) (c'.standing t)) ++
    if c.isOpen && !c'.isOpen then [.close] else []

/-- The observer writes down what happens in a step, to the tasks that are known behind it. -/
def watch {σ α : Type} (view : σ → Contract τ) (known : σ → List τ) (s : σ) (_ : α) (s' : σ) :
    List (Act τ) :=
  news (known s') (view s) (view s')

/-- A list of all the tasks that were taken on, each of them once. -/
def Covers (known : List τ) (c : Contract τ) : Prop :=
  known.Nodup ∧ ∀ t, c.standing t ≠ .unknown → t ∈ known

/-- **What a log tells**: it is a run of the promise, of allowed acts, in which everything happens
to a task at most once and in order. -/
structure Records (allowed : Act τ → Prop) (c : Contract τ) (log : List (Act τ)) : Prop where
  /-- It is a run of the promise that comes to the state. -/
  run : (machine τ).exec (fun _ _ => true) .new log = some c
  /-- Every task has a history that fits how it stands. -/
  history : c.History log
  /-- Nothing happens that is not allowed. -/
  allowed : ∀ a ∈ log, allowed a

variable {allowed : Act τ → Prop} {c c' : Contract τ}

/-- One task goes on, as far as it is seen. -/
def Steps (allowed : Act τ → Prop) (t : τ) (r r' : Standing) : Prop :=
  ∃ a, allowed a ∧ a.task? = some t ∧ a.leads = (r, r')

/-- What the promise does is, for each task, that it goes on. -/
theorem steps_of_goes (h : Relation.ReflTransGen (Goes allowed) c c') (t : τ) :
    Relation.ReflTransGen (Steps allowed t) (c.standing t) (c'.standing t) := by
  induction h with
  | refl => exact .refl
  | @tail b _ _ hlast ih =>
    obtain ⟨a, ha, hstep⟩ := hlast
    rcases step_cases hstep with ⟨-, rfl⟩ | ⟨u, hu, hfrom, -, rfl⟩
    · exact ih
    · rcases eq_or_ne t u with rfl | hne
      · refine ih.tail ⟨a, ha, hu, ?_⟩
        exact Prod.ext hfrom.symm (Function.update_self (f := b.standing) ..).symm
      · simpa only [Function.update_of_ne hne] using ih

/-- The door is closed where somebody may close it. -/
theorem allowed_close (h : Relation.ReflTransGen (Goes allowed) c c') (hopen : c.isOpen = true)
    (hclosed : c'.isOpen = false) : allowed .close := by
  induction h with
  | refl => exact absurd (hopen.symm.trans hclosed) (by simp)
  | tail _ hlast ih =>
    obtain ⟨a, ha, hstep⟩ := hlast
    rcases step_cases hstep with ⟨rfl, -⟩ | ⟨t, -, -, -, rfl⟩
    · exact ha
    · exact ih hclosed

omit [DecidableEq τ] in
/-- A task goes on as far as it can. -/
theorem reaches_of_steps {t : τ} {r r' : Standing}
    (h : Relation.ReflTransGen (Steps allowed t) r r') : r.reaches r' = true := by
  induction h with
  | refl => cases r <;> rfl
  | tail _ hlast ih =>
    obtain ⟨a, -, ht, hleads⟩ := hlast
    cases a with
    | close => cases ht
    | _ =>
      obtain ⟨rfl, rfl⟩ := Prod.mk.inj hleads
      revert ih
      cases r <;> decide

omit [DecidableEq τ] in
/-- What is written of a task is allowed, as what has happened to it is. -/
theorem allowed_between (hcancel : ∀ t, allowed (.abort t) → allowed (.cancel t)) {t : τ}
    {r r' : Standing} (h : Relation.ReflTransGen (Steps allowed t) r r') :
    ∀ a ∈ between t r r', allowed a := by
  induction h with
  | refl => cases r <;> simp [between]
  | @tail r₁ r₂ hbefore hlast ih =>
    obtain ⟨a, ha, ht, hleads⟩ := hlast
    have hreaches := reaches_of_steps hbefore
    cases a with
    | close => cases ht
    | abort u =>
      obtain rfl := Option.some.inj ht
      have hcancelled := hcancel u ha
      obtain ⟨rfl, rfl⟩ := Prod.mk.inj hleads
      cases r <;> simp_all [between, Standing.reaches]
    | _ =>
      obtain rfl := Option.some.inj ht
      obtain ⟨rfl, rfl⟩ := Prod.mk.inj hleads
      cases r <;> simp_all [between, Standing.reaches, Standing.isFinal]

/-- What is written of a task leads it there. -/
theorem exec_between {t : τ} {r : Standing} (h : (c.standing t).reaches r = true)
    (hopen : c.standing t = .unknown → r ≠ .unknown → c.isOpen = true) :
    (machine τ).exec (fun _ _ => true) c (between t (c.standing t) r) =
      some { c with standing := Function.update c.standing t r } := by
  rcases eq_or_ne r (c.standing t) with rfl | hne
  · -- nothing is written where nothing has changed
    have hnone : between t (c.standing t) (c.standing t) = [] := by cases c.standing t <;> rfl
    rw [hnone, Function.update_eq_self]
    rfl
  · cases hfrom : c.standing t <;> cases r <;>
      simp_all [between, Standing.reaches, Standing.isFinal, Machine.exec, machine, step, moves]

/-- What is written of some tasks leads each of them there. -/
theorem exec_flatMap {r : τ → Standing} :
    ∀ (known : List τ) {c : Contract τ}, known.Nodup →
      (∀ t ∈ known, (c.standing t).reaches (r t) = true) →
      (∀ t ∈ known, c.standing t = .unknown → r t ≠ .unknown → c.isOpen = true) →
      (machine τ).exec (fun _ _ => true) c
          (known.flatMap fun t => between t (c.standing t) (r t)) =
        some { c with standing := fun t => if t ∈ known then r t else c.standing t }
  | [], c, _, _, _ => by simp [Machine.exec]
  | t :: known, c, hnodup, hreaches, hopen => by
    obtain ⟨hfresh, hrest⟩ := List.nodup_cons.mp hnodup
    -- the first task does not get in the way of the others
    have hsame : ∀ u ∈ known, Function.update c.standing t (r t) u = c.standing u := by
      intro u hu
      refine Function.update_of_ne ?_ ..
      rintro rfl
      exact hfresh hu
    have hothers : (known.flatMap fun u => between u (c.standing u) (r u)) =
        known.flatMap fun u => between u (Function.update c.standing t (r t) u) (r u) :=
      List.flatMap_congr fun u hu => by rw [hsame u hu]
    have hfirst := exec_between (hreaches t List.mem_cons_self) (hopen t List.mem_cons_self)
    rw [List.flatMap_cons, Machine.exec_append, hfirst, Option.bind_some, hothers]
    refine (exec_flatMap known (c := { c with standing := Function.update c.standing t (r t) })
      hrest (fun u hu => ?_) fun u hu hunknown => ?_).trans ?_
    · simp only [hsame u hu]
      exact hreaches u (List.mem_cons_of_mem t hu)
    · simp only [hsame u hu] at hunknown
      exact hopen u (List.mem_cons_of_mem t hu) hunknown
    · refine congrArg some (congrArg (Contract.mk c.isOpen) (funext fun u => ?_))
      rcases eq_or_ne u t with rfl | hne
      · simp [hfresh]
      · simp [hne]

/-- **What is written of a step leads there.** -/
theorem exec_news (h : Relation.ReflTransGen (Goes allowed) c c') {known : List τ}
    (hknown : Covers known c') :
    (machine τ).exec (fun _ _ => true) c (news known c c') = some c' := by
  have hreaches : ∀ t, (c.standing t).reaches (c'.standing t) = true := fun t =>
    reaches_of_steps (steps_of_goes h t)
  have hlater : (machine τ).Later c c' := h.lift id fun _ _ ⟨a, _, ha⟩ => ⟨a, ha⟩
  have hclosed := unknown_of_later hlater
  have hstanding : (fun t => if t ∈ known then c'.standing t else c.standing t) = c'.standing := by
    funext t
    split_ifs with ht
    · rfl
    · -- a task that is not known was not known before
      have hunknown : c'.standing t = .unknown := by
        by_contra hne
        exact ht (hknown.2 t hne)
      have hback := hreaches t
      rw [hunknown] at hback ⊢
      revert hback
      cases c.standing t <;> decide
  have hopen : ∀ t ∈ known, c.standing t = .unknown → c'.standing t ≠ .unknown →
      c.isOpen = true := by
    intro t _ hunknown hne
    by_contra hshut
    exact hne (((hclosed (Bool.eq_false_iff.mpr hshut)).2 t).mpr hunknown)
  rw [news, Machine.exec_append, exec_flatMap known hknown.1 (fun t _ => hreaches t) hopen,
    Option.bind_some, hstanding]
  cases hbefore : c.isOpen with
  | false =>
    rw [Bool.false_and, if_neg Bool.false_ne_true, ← (hclosed hbefore).1]
    rfl
  | true =>
    cases hafter : c'.isOpen with
    | true =>
      rw [Bool.true_and, Bool.not_true, if_neg Bool.false_ne_true, ← hafter]
      rfl
    | false =>
      rw [Bool.true_and, Bool.not_false, if_pos rfl]
      refine congrArg some (?_ : Contract.mk false c'.standing = c')
      rw [← hafter]

/-- **What an observer writes down is a run of the promise.** It comes to where the component has
come to, as its users see it. -/
theorem Keeps.records {σ α : Type} {M : Machine σ α} {view : σ → Contract τ} {known : σ → List τ}
    (h : Keeps M allowed view) (hknown : ∀ s, M.Reach s → Covers (known s) (view s))
    (hcancel : ∀ t, allowed (.abort t) → allowed (.cancel t)) {t : σ × List (Act τ)}
    (ht : (M.observe (watch view known)).Reach t) : Records allowed (view t.1) t.2 := by
  refine (Machine.observe_invariant (p := fun _ _ => True)
    (I := fun s log => Records allowed (view s) log) (fun s hs => ?_) ?_ ht).2
  · rw [h.init s hs]
    exact ⟨rfl, .new, by simp⟩
  · intro s a s' log hs hlog _ hstep
    have hgoes := h.step s a s' hs hstep
    have hrun := exec_news hgoes (hknown s' (hs.next trivial hstep))
    refine ⟨?_, hlog.history.exec _ hrun, fun b hb => ?_⟩
    · rw [Machine.exec_append, hlog.run, Option.bind_some]
      exact hrun
    · rcases List.mem_append.mp hb with hold | hnew
      · exact hlog.allowed b hold
      · rcases List.mem_append.mp hnew with hmoves | hclose
        · obtain ⟨u, -, hu⟩ := List.mem_flatMap.mp hmoves
          exact allowed_between hcancel (steps_of_goes hgoes u) b hu
        · split_ifs at hclose with hdoor
          · obtain rfl := List.mem_singleton.mp hclose
            simp only [Bool.and_eq_true, Bool.not_eq_true'] at hdoor
            exact allowed_close hgoes hdoor.1 hdoor.2
          · cases hclose

end Watch

/-! ### Tasks in a list

Many a component keeps its tasks in a list, and a task is known by its place there. -/

section OfList

variable {ρ : Type} {allowed : Act ℕ → Prop} {isOpen : Bool} {f : ρ → Standing} {tasks : List ρ}

/-- How the tasks of a list stand. -/
def ofList (isOpen : Bool) (f : ρ → Standing) (tasks : List ρ) : Contract ℕ :=
  ⟨isOpen, fun i => (tasks[i]?).elim .unknown f⟩

/-- A task is taken on at the end of the list. -/
theorem goes_concat {r : ρ} (ha : allowed (.accept tasks.length)) (hr : f r = .waiting) :
    Goes allowed (ofList true f tasks) (ofList true f (tasks ++ [r])) := by
  refine goes_of (.accept tasks.length) ha rfl ?_ ?_ (fun _ => rfl) rfl fun i hne => ?_
  · simp [ofList, Act.leads]
  · simp [ofList, Act.leads, hr]
  · simp only [ofList, getElem?_concat_of_ne hne]

/-- A task goes on at its place in the list, or stands as before. -/
theorem goes_set {i : ℕ} {r r' : ρ} (hi : tasks[i]? = some r)
    (h : Relation.ReflTransGen (Leads allowed i) (f r) (f r')) :
    Relation.ReflTransGen (Goes allowed) (ofList isOpen f tasks)
      (ofList isOpen f (tasks.set i r')) := by
  have hlt : i < tasks.length := (List.getElem?_eq_some_iff.mp hi).1
  have hset : ofList isOpen f (tasks.set i r') = { ofList isOpen f tasks with
      standing := Function.update (ofList isOpen f tasks).standing i (f r') } := by
    refine congrArg (Contract.mk isOpen) (funext fun j => ?_)
    rcases eq_or_ne j i with rfl | hne
    · simp [hlt]
    · rw [Function.update_of_ne hne, ofList, List.getElem?_set_ne hne.symm]
  rw [hset]
  exact goes_update (by simpa [ofList, hi] using h)

/-- The places of the list are those of the tasks that were taken on. -/
theorem covers_ofList : Covers (List.range tasks.length) (ofList isOpen f tasks) := by
  refine ⟨List.nodup_range, fun i hi => List.mem_range.mpr ?_⟩
  by_contra hlt
  exact hi (by simp [ofList, List.getElem?_eq_none (Nat.le_of_not_lt hlt)])

/-- Where the door is closed and every task of the list is done with, nothing is left to do. -/
theorem settled_ofList (hclosed : isOpen = false) (hfinal : ∀ r ∈ tasks, (f r).isFinal = true) :
    (ofList isOpen f tasks).Settled := by
  refine ⟨hclosed, fun i => ?_⟩
  rcases hi : tasks[i]? with _ | r
  · exact Or.inl (by simp [ofList, hi])
  · exact Or.inr (by simpa [ofList, hi] using hfinal r (List.mem_of_getElem? hi))

end OfList

end Contract

end QubitConcurrent
