import McpOps.Workflow.Repository

/-!
# The outbox

Workflows are saved together with an event.  `drain` publishes the events that are pending and
leaves those that the publisher refuses.  Nothing is lost and nothing is published twice.  The
events of a workflow leave the outbox in the order in which they were saved as long as no event
is published that stands behind a refused one of the same workflow in its batch.

## Strategy

A drain is described by what it does to its batch: what is taken is published in its order
(`Outbox.drainBatch_published`), and what is refused stays, and so does what is not in the batch
(`Outbox.drainBatch_append`).  The ids of events are distinct, which is what removing by id needs.

* **Nothing is lost.**  `Outbox.Complete` counts: what has been saved is what has been published and
  what waits, as multisets.  A save and a drain keep it, and `runOutbox_complete` is the run.
* **Order.**  `Outbox.Aligned` is stronger than the order itself: the events of a workflow that wait
  follow those that have been published.  A drain keeps it if it holds back (`Outbox.Aligned.drain`)
  and only then (`Outbox.Aligned.holdsBack`), which makes `runOutbox_inOrder_iff` exact.

`holdsBack_iff` takes the condition apart by workflow, since a batch mixes the events of all.
-/

namespace McpOps

/-! ## Draining -/

/-- A repository, and the events that its publisher has taken. -/
structure Outbox where
  repository : InMemoryWorkflowRepository := {}
  published : List WorkflowOutboxEvent := []

namespace Outbox

/-- The events that wait to be published. -/
def pending (s : Outbox) : List WorkflowOutboxEvent := s.repository.outboxEvents

/-- `mark_workflow_event_published(event_id)` after the publisher has taken the event. -/
def markPublished (event : WorkflowOutboxEvent) (s : Outbox) : Outbox where
  repository := s.repository.markWorkflowEventPublished event.eventId
  published := s.published ++ [event]

/-- The loop of `drain`, with the number of published events. -/
def drainBatch (publish : WorkflowOutboxEvent → Except String Unit) :
    List WorkflowOutboxEvent → Outbox → ℕ × Outbox
  | [], s => (0, s)
  | event :: rest, s =>
      match publish event with
      | .error error =>
          drainBatch publish rest
            { s with
              repository := s.repository.markWorkflowEventFailed event.eventId
                (String.ofList (error.toList.take 500)) }
      | .ok () =>
          let (published, s) := drainBatch publish rest (s.markPublished event)
          (published + 1, s)

/-- `drain(limit)`, where the publisher answers as `publish` says. -/
def drain (limit : ℤ) (publish : WorkflowOutboxEvent → Except String Unit) (s : Outbox) :
    ℕ × Outbox :=
  drainBatch publish (s.repository.pendingWorkflowEvents limit) s

end Outbox

/-- What happens to an outbox. -/
inductive OutboxAction where
  /-- `save_workflow_with_event(workflow, event)` -/
  | saveWithEvent (workflow : Workflow) (event : WorkflowOutboxEvent)
  /-- `drain(limit)` -/
  | drain (limit : ℤ) (publish : WorkflowOutboxEvent → Except String Unit)

namespace OutboxAction

/-- The event that an action saves. -/
def event? : OutboxAction → Option WorkflowOutboxEvent
  | .saveWithEvent _ event => some event
  | .drain .. => none

/-- The outbox after an action. -/
def perform (s : Outbox) : OutboxAction → Outbox
  | .saveWithEvent workflow event =>
      { s with repository := s.repository.saveWorkflowWithEvent workflow event }
  | .drain limit publish => (s.drain limit publish).2

end OutboxAction

/-- The outbox after the actions, from an empty one. -/
def runOutbox (actions : List OutboxAction) : Outbox := actions.foldl OutboxAction.perform {}

/-- The events that the actions save. -/
def savedEvents (actions : List OutboxAction) : List WorkflowOutboxEvent :=
  actions.filterMap OutboxAction.event?

/-- No id is used for two events. -/
def FreshEvents (actions : List OutboxAction) : Prop :=
  ((savedEvents actions).map (·.eventId)).Nodup

/-- The events about a workflow. -/
def eventsOf (workflowId : UUID) (events : List WorkflowOutboxEvent) : List WorkflowOutboxEvent :=
  events.filter fun event => event.aggregateId = workflowId

/-- The publisher takes the event. -/
def Taken (publish : WorkflowOutboxEvent → Except String Unit) (event : WorkflowOutboxEvent) :
    Bool := (publish event).isOk

/-! ## What a drain does -/

section Drain

variable {publish : WorkflowOutboxEvent → Except String Unit} {s : Outbox}
  {event : WorkflowOutboxEvent} {batch rest : List WorkflowOutboxEvent}

/-- A refused event changes nothing. -/
theorem Outbox.drainBatch_refused (h : Taken publish event = false) :
    (drainBatch publish (event :: rest) s).2 = (drainBatch publish rest s).2 := by
  cases hanswer : publish event with
  | error error =>
      rw [drainBatch, hanswer]
      rfl
  | ok _ =>
      rw [Taken, hanswer] at h
      cases h

/-- An event that is taken is marked as published. -/
theorem Outbox.drainBatch_taken (h : Taken publish event) :
    (drainBatch publish (event :: rest) s).2 =
      (drainBatch publish rest (s.markPublished event)).2 := by
  cases hanswer : publish event with
  | error error =>
      rw [Taken, hanswer] at h
      cases h
  | ok _ =>
      rw [drainBatch, hanswer]

/-- The events of a batch that are taken are published in their order. -/
theorem Outbox.drainBatch_published (batch : List WorkflowOutboxEvent) (s : Outbox) :
    (drainBatch publish batch s).2.published = s.published ++ batch.filter (Taken publish) := by
  induction batch generalizing s with
  | nil => simp [drainBatch]
  | cons event rest ih =>
      cases htaken : Taken publish event with
      | false =>
          rw [drainBatch_refused htaken, ih, List.filter_cons_of_neg (by simp [htaken])]
      | true =>
          rw [drainBatch_taken htaken, ih, List.filter_cons_of_pos htaken, markPublished]
          simp

/-- What is published is removed by its id. -/
theorem Outbox.drainBatch_pending (batch : List WorkflowOutboxEvent) (s : Outbox) :
    (drainBatch publish batch s).2.pending = s.pending.filter fun event =>
      event.eventId ∉ (batch.filter (Taken publish)).map (·.eventId) := by
  induction batch generalizing s with
  | nil => simp [drainBatch]
  | cons event rest ih =>
      cases htaken : Taken publish event with
      | false =>
          rw [drainBatch_refused htaken, ih, List.filter_cons_of_neg (by simp [htaken])]
      | true =>
          have hmarked : (s.markPublished event).pending =
              s.pending.filter fun e => e.eventId ≠ event.eventId := rfl
          rw [drainBatch_taken htaken, ih, List.filter_cons_of_pos htaken, hmarked,
            List.filter_filter]
          refine List.filter_congr fun e _ => ?_
          rw [← Bool.decide_and, decide_eq_decide, List.map_cons, List.mem_cons, not_or, and_comm]

/-- With distinct ids, what is refused stays, and so does what is not in the batch. -/
theorem Outbox.drainBatch_append (hdistinct : ((batch ++ rest).map (·.eventId)).Nodup)
    (hpending : s.pending = batch ++ rest) :
    (drainBatch publish batch s).2.pending =
      batch.filter (fun event => !Taken publish event) ++ rest := by
  rw [drainBatch_pending, hpending, List.filter_append]
  rw [List.map_append] at hdistinct
  have hbatch := (List.nodup_append.mp hdistinct).1
  have hapart := (List.nodup_append.mp hdistinct).2.2
  congr 1
  · refine List.filter_congr fun event hevent => ?_
    have hiff : event.eventId ∈ (batch.filter (Taken publish)).map (·.eventId) ↔
        Taken publish event := by
      constructor
      · intro hmem
        obtain ⟨e, he, hid⟩ := List.mem_map.mp hmem
        obtain ⟨he, htaken⟩ := List.mem_filter.mp he
        exact List.inj_on_of_nodup_map hbatch he hevent hid ▸ htaken
      · exact fun htaken => List.mem_map_of_mem (List.mem_filter.mpr ⟨hevent, htaken⟩)
    simp only [hiff, decide_not, Bool.decide_eq_true]
  · refine List.filter_eq_self.mpr fun event hevent => decide_eq_true fun hmem => ?_
    obtain ⟨e, he, hid⟩ := List.mem_map.mp hmem
    exact hapart _ (List.mem_map_of_mem (List.mem_filter.mp he).1)
      _ (List.mem_map_of_mem hevent) hid

end Drain

/-! ## Nothing is lost -/

/-- The events that have been saved are those that have been published and those that wait. -/
structure Outbox.Complete (saved : List WorkflowOutboxEvent) (s : Outbox) : Prop where
  distinct : (saved.map (·.eventId)).Nodup
  perm : saved.Perm (s.published ++ s.pending)

section Complete

variable {saved : List WorkflowOutboxEvent} {s : Outbox} {event : WorkflowOutboxEvent}

theorem Outbox.Complete.nodup (h : s.Complete saved) :
    ((s.published ++ s.pending).map (·.eventId)).Nodup :=
  (h.perm.map _).nodup_iff.mp h.distinct

/-- The batch of a drain, what is behind it, and what the drain makes of them. -/
theorem Outbox.Complete.drain_spec (h : s.Complete saved) (limit : ℤ)
    (publish : WorkflowOutboxEvent → Except String Unit) :
    ∃ batch rest, s.repository.pendingWorkflowEvents limit = batch ∧ s.pending = batch ++ rest ∧
      (s.drain limit publish).2.published = s.published ++ batch.filter (Taken publish) ∧
      (s.drain limit publish).2.pending =
        batch.filter (fun event => !Taken publish event) ++ rest := by
  have hsplit : s.pending = s.repository.pendingWorkflowEvents limit ++
      s.pending.drop (max 1 limit).toNat := (List.take_append_drop ..).symm
  have hdistinct : (s.pending.map (·.eventId)).Nodup := by
    have hnodup := h.nodup
    rw [List.map_append] at hnodup
    exact hnodup.of_append_right
  refine ⟨_, _, rfl, hsplit, Outbox.drainBatch_published .., Outbox.drainBatch_append ?_ hsplit⟩
  rw [← hsplit]
  exact hdistinct

/-- A drain neither loses an event nor publishes one twice. -/
theorem Outbox.Complete.drain (h : s.Complete saved) (limit : ℤ)
    (publish : WorkflowOutboxEvent → Except String Unit) :
    (s.drain limit publish).2.Complete saved where
  distinct := h.distinct
  perm := by
    obtain ⟨batch, rest, -, hpending, hpublished, hleft⟩ := h.drain_spec limit publish
    have hbatch : batch.Perm (batch.filter (Taken publish) ++
        batch.filter (fun event => !Taken publish event)) := (List.filter_append_perm ..).symm
    rw [hpublished, hleft]
    refine h.perm.trans ?_
    rw [hpending, List.append_assoc, ← List.append_assoc (batch.filter _)]
    exact (hbatch.append_right rest).append_left s.published

/-- A new event waits behind the others. -/
theorem Outbox.pending_save (h : s.Complete saved) (hnew : event.eventId ∉ saved.map (·.eventId))
    (workflow : Workflow) :
    ((OutboxAction.saveWithEvent workflow event).perform s).pending = s.pending ++ [event] := by
  refine if_neg fun hmem => hnew ?_
  rw [List.mem_map] at hmem ⊢
  obtain ⟨e, he, hid⟩ := hmem
  exact ⟨e, h.perm.mem_iff.mpr (List.mem_append_right _ he), hid⟩

theorem Outbox.Complete.save (h : s.Complete saved) (workflow : Workflow)
    (hdistinct : ((saved ++ [event]).map (·.eventId)).Nodup) :
    ((OutboxAction.saveWithEvent workflow event).perform s).Complete (saved ++ [event]) where
  distinct := hdistinct
  perm := by
    have hnew : event.eventId ∉ saved.map (·.eventId) := by
      rw [List.map_append, List.nodup_append] at hdistinct
      exact fun hmem => hdistinct.2.2 _ hmem _ (List.mem_singleton_self _) rfl
    rw [pending_save h hnew, ← List.append_assoc]
    exact h.perm.append_right [event]

end Complete

theorem runOutbox_append (actions : List OutboxAction) (action : OutboxAction) :
    runOutbox (actions ++ [action]) = action.perform (runOutbox actions) := by
  rw [runOutbox, List.foldl_append]
  rfl

theorem savedEvents_append (actions : List OutboxAction) (action : OutboxAction) :
    savedEvents (actions ++ [action]) = savedEvents actions ++ action.event?.toList := by
  rw [savedEvents, List.filterMap_append]
  cases action <;> rfl

theorem FreshEvents.of_prefix {earlier actions : List OutboxAction} (h : FreshEvents actions)
    (hpre : earlier <+: actions) : FreshEvents earlier :=
  List.Nodup.sublist ((hpre.sublist.filterMap _).map _) h

/-- The outbox is complete after every run. -/
theorem complete_run {actions : List OutboxAction} (hfresh : FreshEvents actions) :
    (runOutbox actions).Complete (savedEvents actions) := by
  induction actions using List.reverseRecOn with
  | nil => exact ⟨List.nodup_nil, .refl _⟩
  | append_singleton earlier action ih =>
      have hbefore := ih (hfresh.of_prefix (List.prefix_append ..))
      rw [FreshEvents, savedEvents_append] at hfresh
      rw [runOutbox_append, savedEvents_append]
      cases action with
      | saveWithEvent workflow event => exact hbefore.save workflow hfresh
      | drain limit publish =>
          rw [show (OutboxAction.drain limit publish).event?.toList = [] from rfl, List.append_nil]
          exact hbefore.drain limit publish

/-- Every event that was saved has either been published, once, or waits. -/
theorem runOutbox_complete {actions : List OutboxAction} (hfresh : FreshEvents actions) :
    (savedEvents actions).Perm ((runOutbox actions).published ++ (runOutbox actions).pending) ∧
      ((runOutbox actions).published.map (·.eventId)).Nodup := by
  have hcomplete := complete_run hfresh
  refine ⟨hcomplete.perm, ?_⟩
  have hnodup := hcomplete.nodup
  rw [List.map_append] at hnodup
  exact hnodup.of_append_left

/-- A workflow for small examples. -/
def emptyWorkflow (id : UUID) : Workflow where
  id
  userRequest := "How is dev-1?"
  createdBy := "api-user"
  createdAt := 0
  plannerModel := "json-workflow-planner-test"
  confidence := .finite 1

/-- The event `n` about the workflow 5. -/
def smallEvent (n : ℕ) : WorkflowOutboxEvent where
  eventId := n
  eventType := "workflow.saved"
  aggregateId := 5
  payload := []
  createdAt := seconds n
  correlationId := n

/-- Two events are saved.  The publisher refuses the first one in a first drain, and takes
everything in a second. -/
def firstRefused : List OutboxAction :=
  [.saveWithEvent (emptyWorkflow 5) (smallEvent 1), .saveWithEvent (emptyWorkflow 5) (smallEvent 2),
    .drain 100 fun event => if event.eventId = 1 then .error "unavailable" else .ok (),
    .drain 100 fun _ => .ok ()]

/-- Both events are published once. -/
theorem runOutbox_complete_firstRefused :
    (savedEvents firstRefused).Perm
        ((runOutbox firstRefused).published ++ (runOutbox firstRefused).pending) ∧
      ((runOutbox firstRefused).published.map (·.eventId)).Nodup :=
  runOutbox_complete (by unfold FreshEvents; decide)

/-! ## The order of events -/

/-- The events of every workflow have been published in the order in which they were saved, up
to the next one that waits. -/
def Outbox.InOrder (saved : List WorkflowOutboxEvent) (s : Outbox) : Prop :=
  ∀ workflowId, eventsOf workflowId s.published <+: eventsOf workflowId saved

/-- The events of every workflow that wait follow those that have been published. -/
def Outbox.Aligned (saved : List WorkflowOutboxEvent) (s : Outbox) : Prop :=
  ∀ workflowId,
    eventsOf workflowId saved = eventsOf workflowId s.published ++ eventsOf workflowId s.pending

/-- The publisher takes no event of a batch that stands behind a refused one of its workflow. -/
def HoldsBack (publish : WorkflowOutboxEvent → Except String Unit)
    (batch : List WorkflowOutboxEvent) : Prop :=
  batch.Pairwise fun first second =>
    first.aggregateId = second.aggregateId → Taken publish second → Taken publish first

section Order

variable {α : Type} {p : α → Bool} {l : List α}

theorem filter_append_filter_not (h : l.Pairwise fun a b => p b → p a) :
    l.filter p ++ l.filter (fun a => !p a) = l := by
  induction h with
  | nil => rfl
  | @cons a l hfirst _ ih =>
      cases ha : p a with
      | true => simp [ha, ih]
      | false =>
          have hnone : ∀ b ∈ l, ¬p b := fun b hb hp => by simp [hfirst b hb hp] at ha
          have hall : ∀ b ∈ l, (!p b) = true := fun b hb => by simp [hnone b hb]
          rw [List.filter_cons_of_neg (by simp [ha]), List.filter_eq_nil_iff.mpr hnone,
            List.filter_cons_of_pos (by simp [ha]), List.filter_eq_self.mpr hall, List.nil_append]

theorem pairwise_of_filter_prefix (h : l.filter p <+: l) : l.Pairwise fun a b => p b → p a := by
  induction l with
  | nil => exact .nil
  | cons a l ih =>
      cases ha : p a with
      | true =>
          rw [List.filter_cons_of_pos ha] at h
          exact .cons (fun _ _ _ => ha) (ih ((List.cons_prefix_cons.mp h).2))
      | false =>
          have hne : ¬p a := by simp [ha]
          rw [List.filter_cons_of_neg hne] at h
          -- the first that is left would be `a`
          have hnil : l.filter p = [] := by
            by_contra hsome
            obtain ⟨b, rest, hb⟩ := List.exists_cons_of_ne_nil hsome
            rw [hb] at h
            obtain ⟨rfl, -⟩ := List.cons_prefix_cons.mp h
            have hmem : b ∈ l.filter p := by simp [hb]
            exact hne (List.mem_filter.mp hmem).2
          have hnone := List.filter_eq_nil_iff.mp hnil
          refine .cons (fun b hb hp => absurd hp (hnone b hb)) ?_
          exact List.Pairwise.imp_of_mem (fun {_ b} _ hb _ hp => absurd hp (hnone b hb))
            (List.pairwise_of_forall (R := fun _ _ => True) fun _ _ => trivial)

end Order

section InOrder

variable {saved : List WorkflowOutboxEvent} {s : Outbox} {limit : ℤ}
  {publish : WorkflowOutboxEvent → Except String Unit} {batch : List WorkflowOutboxEvent}

theorem eventsOf_append (workflowId : UUID) (l₁ l₂ : List WorkflowOutboxEvent) :
    eventsOf workflowId (l₁ ++ l₂) = eventsOf workflowId l₁ ++ eventsOf workflowId l₂ :=
  List.filter_append ..

theorem eventsOf_filter (workflowId : UUID) (p : WorkflowOutboxEvent → Bool)
    (l : List WorkflowOutboxEvent) :
    eventsOf workflowId (l.filter p) = (eventsOf workflowId l).filter p := List.filter_comm ..

/-- The condition on a batch, workflow by workflow. -/
theorem holdsBack_iff : HoldsBack publish batch ↔ ∀ workflowId,
    (eventsOf workflowId batch).Pairwise fun first second =>
      Taken publish second → Taken publish first := by
  simp only [HoldsBack, eventsOf, List.pairwise_filter, decide_eq_true_eq]
  simp only [List.pairwise_iff_getElem]
  constructor
  · intro h workflowId i j hi hj hij hfirst hsecond
    exact h i j hi hj hij (hfirst.trans hsecond.symm)
  · intro h i j hi hj hij hsame
    exact h _ i j hi hj hij hsame rfl

theorem Outbox.Aligned.inOrder (h : s.Aligned saved) : s.InOrder saved :=
  fun workflowId => ⟨_, (h workflowId).symm⟩

/-- When a drain holds back, the events that wait still follow those that are published. -/
theorem Outbox.Aligned.drain (h : s.Aligned saved) (hcomplete : s.Complete saved)
    (hholds : HoldsBack publish (s.repository.pendingWorkflowEvents limit)) :
    (s.drain limit publish).2.Aligned saved := by
  obtain ⟨batch, rest, hbatch, hpending, hpublished, hleft⟩ := hcomplete.drain_spec limit publish
  intro workflowId
  rw [hbatch, holdsBack_iff] at hholds
  have hsplit := filter_append_filter_not (hholds workflowId)
  rw [h workflowId, hpending, hpublished, hleft]
  simp only [eventsOf_append, eventsOf_filter]
  nth_rewrite 1 [← hsplit]
  simp only [List.append_assoc]

/-- A drain that keeps the order holds back. -/
theorem Outbox.Aligned.holdsBack (h : s.Aligned saved) (hcomplete : s.Complete saved)
    (horder : (s.drain limit publish).2.InOrder saved) :
    HoldsBack publish (s.repository.pendingWorkflowEvents limit) := by
  obtain ⟨batch, rest, hbatch, hpending, hpublished, -⟩ := hcomplete.drain_spec limit publish
  rw [hbatch, holdsBack_iff]
  intro workflowId
  have hpre := horder workflowId
  rw [h workflowId, hpending, hpublished, eventsOf_append, eventsOf_append,
    List.prefix_append_right_inj, eventsOf_filter] at hpre
  have hshort : ((eventsOf workflowId batch).filter (Taken publish)).length ≤
      (eventsOf workflowId batch).length := List.length_filter_le ..
  exact pairwise_of_filter_prefix
    (List.prefix_of_prefix_length_le hpre (List.prefix_append ..) hshort)

/-- A new event is the last one of its workflow. -/
theorem Outbox.Aligned.save {event : WorkflowOutboxEvent} (h : s.Aligned saved)
    (hcomplete : s.Complete saved) (workflow : Workflow)
    (hdistinct : ((saved ++ [event]).map (·.eventId)).Nodup) :
    ((OutboxAction.saveWithEvent workflow event).perform s).Aligned (saved ++ [event]) := by
  have hnew : event.eventId ∉ saved.map (·.eventId) := by
    rw [List.map_append, List.nodup_append] at hdistinct
    exact fun hmem => hdistinct.2.2 _ hmem _ (List.mem_singleton_self _) rfl
  have hpublished : ((OutboxAction.saveWithEvent workflow event).perform s).published =
      s.published := rfl
  intro workflowId
  rw [pending_save hcomplete hnew, hpublished, eventsOf_append, eventsOf_append, h workflowId,
    List.append_assoc]

/-- Every drain along the actions holds back. -/
def HoldsBackThroughout (actions : List OutboxAction) : Prop :=
  ∀ earlier limit publish, earlier ++ [.drain limit publish] <+: actions →
    HoldsBack publish ((runOutbox earlier).repository.pendingWorkflowEvents limit)

/-- While the drains hold back, the events that wait follow those that are published. -/
theorem aligned_run {actions : List OutboxAction} (hfresh : FreshEvents actions)
    (hdrains : ∀ earlier limit publish, earlier ++ [.drain limit publish] <+: actions →
      (runOutbox earlier).Aligned (savedEvents earlier) →
        HoldsBack publish ((runOutbox earlier).repository.pendingWorkflowEvents limit)) :
    (runOutbox actions).Aligned (savedEvents actions) := by
  induction actions using List.reverseRecOn with
  | nil => exact fun _ => rfl
  | append_singleton earlier action ih =>
      have hearlier := hfresh.of_prefix (List.prefix_append earlier [action])
      have hcomplete := complete_run hearlier
      have hbefore := ih hearlier fun e limit publish he =>
        hdrains e limit publish (he.trans (List.prefix_append ..))
      rw [FreshEvents, savedEvents_append] at hfresh
      rw [runOutbox_append, savedEvents_append]
      cases action with
      | saveWithEvent workflow event => exact hbefore.save hcomplete workflow hfresh
      | drain limit publish =>
          rw [show (OutboxAction.drain limit publish).event?.toList = [] from rfl, List.append_nil]
          exact hbefore.drain hcomplete (hdrains earlier limit publish (List.prefix_refl _) hbefore)

/-- The events of every workflow are published in the order in which they were saved, at every
moment of a run, exactly when every drain of the run holds back. -/
theorem runOutbox_inOrder_iff {actions : List OutboxAction} (hfresh : FreshEvents actions) :
    (∀ earlier, earlier <+: actions → (runOutbox earlier).InOrder (savedEvents earlier)) ↔
      HoldsBackThroughout actions := by
  constructor
  · intro horder earlier limit publish hpre
    have hearlier := (List.prefix_append earlier [OutboxAction.drain limit publish]).trans hpre
    -- a drain that keeps the order has held back
    have hback : ∀ e limit publish, e ++ [.drain limit publish] <+: actions →
        (runOutbox e).Aligned (savedEvents e) →
          HoldsBack publish ((runOutbox e).repository.pendingWorkflowEvents limit) := by
      intro e limit publish he haligned
      have hfreshe := hfresh.of_prefix ((List.prefix_append e _).trans he)
      refine haligned.holdsBack (complete_run hfreshe) ?_
      have hafter := horder _ he
      rw [runOutbox_append, savedEvents_append] at hafter
      rw [show (OutboxAction.drain limit publish).event?.toList = [] from rfl,
        List.append_nil] at hafter
      exact hafter
    exact hback earlier limit publish hpre
      (aligned_run (hfresh.of_prefix hearlier) fun e limit publish he =>
        hback e limit publish (he.trans hearlier))
  · intro hholds earlier hpre
    exact (aligned_run (hfresh.of_prefix hpre) fun e limit publish he _ =>
      hholds e limit publish (he.trans hpre)).inOrder

end InOrder

/-- The same two saves, where the publisher refuses everything in the first drain. -/
def allRefused : List OutboxAction :=
  firstRefused.take 2 ++ [.drain 100 fun _ => .error "unavailable", .drain 100 fun _ => .ok ()]

/-- What is refused as a whole is published in order later. -/
theorem runOutbox_inOrder_allRefused :
    (∀ earlier, earlier <+: allRefused → (runOutbox earlier).InOrder (savedEvents earlier)) ↔
      HoldsBackThroughout allRefused :=
  runOutbox_inOrder_iff (by unfold FreshEvents; decide)

/-- An event overtakes an earlier one of its workflow that was refused. -/
theorem refused_event_overtaken :
    ¬ ∀ actions, FreshEvents actions → ∀ workflowId,
      (eventsOf workflowId (runOutbox actions).published).Sublist
        (eventsOf workflowId (savedEvents actions)) := by
  intro hclaim
  have hsublist := (hclaim firstRefused (by unfold FreshEvents; decide) 5).map (·.eventId)
  exact absurd hsublist (by decide)

end McpOps
