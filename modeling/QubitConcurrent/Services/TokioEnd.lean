import QubitConcurrent.Services.Stability
import QubitConcurrent.Services.TokioGate

/-!
# How a Tokio service ends

A Tokio service is orderly, whatever its futures are and however they are polled: the count
rises, and tasks are admitted, under the submission lock only, by a submission that has loaded
the flag unset, and the flag is set under that lock too.
-/

namespace QubitConcurrent

namespace Tokio

open Services

open Services.Core (Advance)

variable {R E : Type} {poll : Task.Poll R E} {s s' : Service R E}

/-- **What the submissions of a service may rely on.** -/
structure Sound (s : Service R E) : Prop where
  /-- Handles are for admitted tasks. -/
  handles : ∀ i, .submit (.ok i) ∈ s.replies → i < s.tasks.length
  /-- A submission past its check holds the lock the flag is set under. -/
  entering : s.submissionLock = some .submitCounting ∨ s.submissionLock = some .submitReleasing →
    s.shutdown = false

/-- What a step does: it keeps what submissions rely on, it changes the common state as it
may, and it admits nothing once the flag is set. -/
structure Ending (s s' : Service R E) : Prop where
  /-- Submissions can rely on what they did. -/
  sound : Sound s'
  /-- The common state changes as it may. -/
  advance : Advance s.toCore s'.toCore
  /-- Once the flag is set, no task is admitted. -/
  frozen : s.shutdown = true → s'.tasks.length = s.tasks.length

/-- A service that was just created is sound. -/
theorem Sound.new : Sound (.new : Service R E) where
  handles := by simp [Service.new]
  entering := by simp [Service.new]

/-- A step beside the submission lock. -/
theorem ending_beside (hs : Sound s) (hlock : s'.submissionLock = s.submissionLock)
    (hlength : s'.tasks.length = s.tasks.length) (h : Advance s.toCore s'.toCore)
    (hshutdown : s'.shutdown = s.shutdown)
    (hreplies : ∀ i, .submit (.ok i) ∈ s'.replies → i < s.tasks.length) : Ending s s' where
  sound := ⟨fun i hi => hlength ▸ hreplies i hi,
    fun h => hshutdown.trans (hs.entering (hlock ▸ h))⟩
  advance := h
  frozen _ := hlength

/-- A step that touches nothing but the common state. -/
theorem ending_core (hs : Sound s) {c : Core Await} (h : Advance s.toCore c)
    (hshutdown : c.shutdown = s.shutdown) : Ending s { s with toCore := c } :=
  ending_beside hs rfl rfl h hshutdown hs.handles

/-- A step of one task that concerns nobody else. -/
theorem ending_onTask (hs : Sound s) {i : ℕ} {f : Task R E → Option (Task R E)}
    (hstep : s.onTask i f = some s') : Ending s s' ∧ s'.replies = s.replies := by
  obtain ⟨t, -, ht⟩ := Option.bind_eq_some_iff.mp hstep
  obtain ⟨t', -, rfl⟩ := Option.map_eq_some_iff.mp ht
  exact ⟨ending_beside hs rfl (List.length_set ..) (.refl _) rfl hs.handles, rfl⟩

/-- An abort does not touch the common state, and nobody comes or goes. -/
theorem abort_beside (s : Service R E) (i : ℕ) :
    (s.abort i).toCore = s.toCore ∧ (s.abort i).tasks.length = s.tasks.length ∧
      (s.abort i).replies = s.replies := by
  rw [Service.abort]
  split
  · exact ⟨rfl, List.length_set .., rfl⟩
  · exact ⟨rfl, rfl, rfl⟩

/-- The submission lock passes on, or is released, and nobody comes or goes. -/
theorem ending_lock (hs : Sound s)
    (hentering : s'.submissionLock = some .submitCounting ∨
      s'.submissionLock = some .submitReleasing → s'.shutdown = false)
    (hlength : s'.tasks.length = s.tasks.length) (h : Advance s.toCore s'.toCore)
    (hreplies : ∀ i, .submit (.ok i) ∈ s'.replies → .submit (.ok i) ∈ s.replies) :
    Ending s s' where
  sound := ⟨fun i hi => hlength ▸ hs.handles i (hreplies i hi), hentering⟩
  advance := h
  frozen _ := hlength

/-- The holder of the submission lock takes a step. -/
theorem ending_holderNext (hs : Sound s) {h : Holder} (hlock : s.submissionLock = some h) :
    Ending s (s.holderNext h) := by
  cases h with
  | submitChecking =>
    rw [Service.holderNext]
    split_ifs with hshutdown
    · exact ending_lock hs (by simp [Service.release]) rfl (.refl _) (by simp [Service.release])
    · exact ending_lock hs (fun _ => Bool.eq_false_iff.mpr hshutdown) rfl (.refl _) fun _ => id
  | submitCounting =>
    have hopen := hs.entering (Or.inl hlock)
    exact ending_lock hs (fun _ => hopen) rfl (.enter hopen) fun _ => id
  | submitReleasing =>
    have hopen := hs.entering (Or.inr hlock)
    refine ⟨⟨fun i hi => ?_, by simp [Service.holderNext]⟩, .refl _,
      fun hshutdown => absurd (hopen.symm.trans hshutdown) Bool.false_ne_true⟩
    have hlt := hs.handles i hi
    simp only [Service.holderNext, List.length_append, List.length_singleton]
    omega
  | shutdownStoring | shutdownNowStoring =>
    exact ending_lock hs (by simp [Service.holderNext, Service.hold]) rfl (.close _) fun _ => id
  | shutdownNowReading | shutdownNowLocking running =>
    exact ending_lock hs (by simp [Service.holderNext, Service.hold]) rfl (.refl _) fun _ => id
  | shutdownNowAborting pending report =>
    cases pending with
    | nil =>
      exact ending_lock hs (by simp [Service.holderNext, Service.hold]) rfl (.refl _) fun _ => id
    | cons i pending =>
      obtain ⟨hcore, hlength, hreplies⟩ := abort_beside s i
      refine ending_lock hs (by simp [Service.holderNext, Service.hold]) hlength ?_ fun j hj => ?_
      · exact hcore ▸ .refl _
      · exact hreplies ▸ hj
  | shutdownAnnouncing a | shutdownNowAnnouncing a report =>
    have hadvance := Advance.announce s.toCore a
    rw [Service.holderNext]
    split
    · next a' c hc =>
      rw [hc] at hadvance
      exact ending_lock hs (by simp [Service.hold]) rfl hadvance fun _ => id
    · next c hc =>
      rw [hc] at hadvance
      exact ending_lock hs (by simp [Service.release]) rfl hadvance (by simp [Service.release])

/-- The guard of a task takes a step. -/
theorem ending_guardNext (hs : Sound s) {i : ℕ} (hstep : s.guardNext i = some s') :
    Ending s s' := by
  rw [Service.guardNext] at hstep
  split at hstep
  · obtain rfl := Option.some.inj hstep
    exact ending_beside hs rfl (List.length_set ..) (.leave _) rfl hs.handles
  · obtain rfl := Option.some.inj hstep
    exact ending_beside hs rfl (List.length_set ..) (.announce ..) (Core.shutdown_announce ..)
      hs.handles
  · exact absurd hstep (by simp)

/-- **Every step keeps what submissions rely on, and does nothing but what may end the
service.** -/
theorem step_ending (hs : Sound s) {a : Action R E} (hstep : s.step poll a = some s') :
    Ending s s' := by
  cases a with
  | submit | shutdown | shutdownNow =>
    simp only [Service.step, Service.acquire] at hstep
    split_ifs at hstep
    obtain rfl := Option.some.inj hstep
    exact ending_lock hs (by simp [Service.hold]) rfl (.refl _) fun _ => id
  | holderNext =>
    obtain ⟨h, hlock, rfl⟩ := Option.map_eq_some_iff.mp hstep
    exact ending_holderNext hs hlock
  | spawn i inRuntime =>
    obtain ⟨t, ht, rfl⟩ := Option.map_eq_some_iff.mp hstep
    obtain ⟨hending, hreplies⟩ := ending_onTask hs ht
    split_ifs
    · exact hending
    · refine ⟨⟨fun j hj => hending.sound.handles j (by simpa using hj), hending.sound.entering⟩,
        hending.advance, hending.frozen⟩
  | list i =>
    simp only [Service.step, Service.list] at hstep
    split at hstep
    · next future closure aborted hi =>
      split_ifs at hstep
      obtain rfl := Option.some.inj hstep
      refine ending_beside hs rfl (List.length_set ..) (.refl _) rfl fun j hj => ?_
      rcases List.mem_append.mp hj with hold | hnew
      · exact hs.handles j hold
      · obtain rfl : j = i := by simpa using hnew
        exact (List.getElem?_eq_some_iff.mp hi).1
    · exact absurd hstep (by simp)
  | poll i answer => exact (ending_onTask hs hstep).1
  | drop i => exact (ending_onTask hs hstep).1
  | guardNext i => exact ending_guardNext hs hstep
  | closureStarts i => exact (ending_onTask hs hstep).1
  | closureReturns i outcome => exact (ending_onTask hs hstep).1
  | cancel i => exact (ending_onTask hs hstep).1
  | await | awaitNext k | awaitDrop k | isTerminated | queryNext k =>
    obtain ⟨c, hturn, rfl⟩ := step_turn rfl hstep
    exact ending_core hs (.turn hturn) hturn.shutdown

/-- Over every run, submissions can rely on each other. -/
theorem sound_of_reach (hs : (machine poll).Reach s) : Sound s := by
  refine hs.invariant (I := Sound) ?_ ?_
  · intro s hinit
    rw [hinit]
    exact .new
  · intro s a s' _ hsound _ hstep
    exact (step_ending hsound hstep).sound

/-- **A Tokio service is orderly**, however its futures are polled. -/
theorem orderly (poll : Task.Poll R E) :
    Orderly (machine poll) (·.toCore) (·.tasks.length) (·.replies) where
  init s hinit := by
    rw [hinit]
    rfl
  advance _ _ _ hr hstep := (step_ending (sound_of_reach hr) hstep).advance
  frozen _ _ _ hr hstep := (step_ending (sound_of_reach hr) hstep).frozen
  accepted _ hr i hi := (sound_of_reach hr).handles i hi

end Tokio

end QubitConcurrent
