import McpOps.Tools.Reads
import McpOps.Tools.ServiceViews

/-!
# Creating tickets

The id of a new ticket is the start of a hash of the input of `create`.  An input that hashes to
the id of a ticket of the service replaces that ticket, with all that was done to it.  Whether a
creation leaves the other tickets alone thus depends on the inputs of the creations before it.

For one call, `create_addsOne` says that a creation adds a ticket exactly when its id is not taken.
What is taken is determined by the calls: a creation takes its id, no other call takes or frees one
(`isSome_call`), and no input has the id of the ticket that every service starts with
(`ticketId_ne_seed`).  So after any calls the ids are those of the creations among them
(`isSome_afterAll`), and two inputs have one id when their hashes begin alike (`ticketId_eq_iff`).

`create_addsOne_iff` is the equivalence, and the examples create a ticket beside another one and
create one twice.
-/

namespace McpOps

/-! ## Runs -/

/-- The service after the calls. -/
def TicketDomainService.afterAll (rt : ToolRuntime) (s : TicketDomainService)
    (calls : List TicketCall) : TicketDomainService :=
  calls.foldl (fun s call => (s.call rt call).2) s

/-- The device of the input is known. -/
def CreateTicketInput.Valid (devices : DeviceDomainService) (payload : CreateTicketInput) : Prop :=
  (devices.registry.devices.get? payload.deviceId).isSome

instance (devices : DeviceDomainService) (payload : CreateTicketInput) :
    Decidable (payload.Valid devices) := inferInstanceAs (Decidable (_ = _))

/-- The input from which a call creates a ticket. -/
def TicketCall.created (devices : DeviceDomainService) : TicketCall → Option CreateTicketInput
  | .create payload => if payload.Valid devices then some payload else none
  | _ => none

/-- The first eight digits of the hash of the input, which its id shows. -/
def CreateTicketInput.digits (rt : ToolRuntime) (payload : CreateTicketInput) : List Char :=
  (rt.urlUuid (rt.str (.dict payload.modelDump))).str.toList.take 8

/-- One ticket is new, and every other id has the ticket it had before. -/
def TicketDomainService.AddsOne (s t : TicketDomainService) : Prop :=
  ∃ ticketId ticket, s.tickets.get? ticketId = none ∧ t.tickets.get? ticketId = some ticket ∧
    ∀ other ≠ ticketId, t.tickets.get? other = s.tickets.get? other

section Creation

variable {rt : ToolRuntime} {s : TicketDomainService} {devices : DeviceDomainService}
  {payload : CreateTicketInput}

/-! ## Ids -/

theorem toList_ticketId (rt : ToolRuntime) (payload : CreateTicketInput) :
    (payload.ticketId rt).toList = ['T', 'C', 'K', '-'] ++ payload.digits rt := by
  have hpre : ("TCK-" : String).toList = ['T', 'C', 'K', '-'] := rfl
  rw [CreateTicketInput.ticketId, String.toList_ofList, String.toList_append, hpre,
    CreateTicketInput.digits, List.take_append]
  simp only [List.length_cons, List.length_nil, List.take_succ_cons, List.take_nil]

theorem length_digits (rt : ToolRuntime) (payload : CreateTicketInput) :
    (payload.digits rt).length = 8 := by
  rw [CreateTicketInput.digits, List.length_take, String.length_toList, UUID.length_str]
  rfl

/-- Two inputs have one id when their hashes begin alike. -/
theorem ticketId_eq_iff {other : CreateTicketInput} :
    payload.ticketId rt = other.ticketId rt ↔ payload.digits rt = other.digits rt := by
  rw [← String.toList_inj, toList_ticketId, toList_ticketId, List.append_cancel_left_eq]

/-- No input has the id of the ticket that every service starts with. -/
theorem ticketId_ne_seed : payload.ticketId rt ≠ TicketDomainService.seedTicket.ticketId := by
  intro h
  have hlength := congrArg (fun id : String => id.toList.length) h
  simp only [toList_ticketId, List.length_append, length_digits] at hlength
  exact absurd hlength (by decide)

/-! ## One call -/

theorem create_of_valid (hvalid : payload.Valid s.deviceService) :
    (s.create rt payload).2 = s.put (payload.ticket rt) := by
  obtain ⟨device, hdevice⟩ := Option.isSome_iff_exists.mp hvalid
  rw [TicketDomainService.create, DeviceDomainService.device, hdevice]

theorem create_of_not_valid (hvalid : ¬payload.Valid s.deviceService) :
    (s.create rt payload).2 = s := by
  have hdevice := Option.not_isSome_iff_eq_none.mp hvalid
  rw [TicketDomainService.create, DeviceDomainService.device, hdevice]

/-- The ticket of an id once another has been stored. -/
theorem get?_put (ticket : Ticket) (id : String) :
    (s.put ticket).tickets.get? id =
      if id = ticket.ticketId then some ticket else s.tickets.get? id :=
  Dict.get?_set ..

/-- What is created under an id that is taken replaces the ticket of that id. -/
theorem create_addsOne (hvalid : payload.Valid s.deviceService) :
    s.AddsOne (s.create rt payload).2 ↔ s.tickets.get? (payload.ticketId rt) = none := by
  rw [create_of_valid hvalid]
  constructor
  · rintro ⟨id, ticket, hnone, hsome, hother⟩
    by_cases heq : id = payload.ticketId rt
    · rw [← heq, hnone]
    · rw [get?_put, CreateTicketInput.ticket, if_neg heq, hnone] at hsome
      cases hsome
  · intro hfresh
    refine ⟨payload.ticketId rt, payload.ticket rt, hfresh, ?_, fun other hne => ?_⟩
    · exact Dict.get?_set_self ..
    · rw [get?_put]
      exact if_neg hne

/-- Changing a ticket takes no id and frees none. -/
theorem isSome_modify (s : TicketDomainService) (ticketId : String) (change : Ticket → Ticket)
    (hid : ∀ t, (change t).ticketId = t.ticketId) (id : String) :
    ((s.modify ticketId change).2.tickets.get? id).isSome = (s.tickets.get? id).isSome := by
  unfold TicketDomainService.modify TicketDomainService.ticket
  cases hfound : s.tickets.get? ticketId with
  | none => rfl
  | some ticket =>
      have hkey : (change ticket).ticketId = ticketId := by rw [hid, s.keyed _ _ hfound]
      dsimp only [TicketDomainService.put]
      rw [Dict.get?_set, hkey]
      split
      · rename_i heq
        rw [heq, hfound]
        rfl
      · rfl

/-- A call takes the id of what it creates, and no other. -/
theorem isSome_call (rt : ToolRuntime) (s : TicketDomainService) (call : TicketCall)
    (id : String) :
    ((s.call rt call).2.tickets.get? id).isSome ↔
      (s.tickets.get? id).isSome ∨
        ∃ payload ∈ call.created s.deviceService, payload.ticketId rt = id := by
  cases call with
  | create payload =>
      rw [TicketDomainService.call, TicketCall.created]
      by_cases hvalid : payload.Valid s.deviceService
      · rw [create_of_valid hvalid, get?_put, if_pos hvalid]
        by_cases heq : id = payload.ticketId rt
        · simp [heq, CreateTicketInput.ticket]
        · simp [heq, Ne.symm heq, CreateTicketInput.ticket]
      · rw [create_of_not_valid hvalid, if_neg hvalid]
        simp
  | update ticketId status priority description =>
      have hmodify := isSome_modify s ticketId (Ticket.updated status priority description)
        (fun _ => rfl) id
      rw [TicketDomainService.call, TicketDomainService.update, hmodify]
      simp [TicketCall.created]
  | assign ticketId assignee =>
      have hmodify := isSome_modify s ticketId (Ticket.assigned assignee) (fun _ => rfl) id
      rw [TicketDomainService.call, TicketDomainService.assign, hmodify]
      simp [TicketCall.created]
  | _ => simp [TicketDomainService.call, TicketCall.created]

/-! ## Whole runs -/

/-- The ids that are taken after the calls. -/
theorem isSome_afterAll (calls : List TicketCall) (s : TicketDomainService) (id : String) :
    ((s.afterAll rt calls).tickets.get? id).isSome ↔
      (s.tickets.get? id).isSome ∨
        ∃ payload ∈ calls.filterMap (TicketCall.created s.deviceService),
          payload.ticketId rt = id := by
  induction calls generalizing s with
  | nil => simp [TicketDomainService.afterAll]
  | cons call rest ih =>
      have hcall := isSome_call rt s call id
      rw [TicketDomainService.afterAll, List.foldl_cons, ← TicketDomainService.afterAll, ih, hcall,
        TicketDomainService.call_deviceService, or_assoc]
      refine or_congr_right ?_
      cases hcreated : call.created s.deviceService with
      | none => simp [List.filterMap_cons_none hcreated]
      | some payload => simp [List.filterMap_cons_some hcreated, or_and_right, exists_or]

theorem deviceService_afterAll (rt : ToolRuntime) (calls : List TicketCall)
    (s : TicketDomainService) :
    (s.afterAll rt calls).deviceService = s.deviceService := by
  induction calls generalizing s with
  | nil => rfl
  | cons call rest ih => exact (ih _).trans (TicketDomainService.call_deviceService call)

end Creation

/-- After any calls, a valid creation adds one ticket and touches no other exactly when the hash of
no creation before it begins with the same eight digits. -/
theorem create_addsOne_iff (rt : ToolRuntime) (devices : DeviceDomainService)
    (calls : List TicketCall) (payload : CreateTicketInput) (hvalid : payload.Valid devices) :
    ((TicketDomainService.new devices).afterAll rt calls).AddsOne
        (((TicketDomainService.new devices).afterAll rt calls).create rt payload).2 ↔
      ∀ earlier ∈ calls.filterMap (TicketCall.created devices),
        earlier.digits rt ≠ payload.digits rt := by
  have hdevices := deviceService_afterAll rt calls (TicketDomainService.new devices)
  rw [create_addsOne (by rw [hdevices]; exact hvalid), ← Option.not_isSome_iff_eq_none,
    isSome_afterAll]
  have hseed : ¬((TicketDomainService.new devices).tickets.get? (payload.ticketId rt)).isSome := by
    rw [TicketDomainService.new, TicketDomainService.put, Dict.get?_set, if_neg ticketId_ne_seed]
    exact Bool.false_ne_true
  constructor
  · intro h earlier hmem hsame
    exact h (.inr ⟨earlier, hmem, ticketId_eq_iff.mpr hsame⟩)
  · rintro h (hfound | ⟨earlier, hmem, hsame⟩)
    · exact hseed hfound
    · exact h earlier hmem (ticketId_eq_iff.mp hsame)

/-- Library functions for the small examples: the identifier of a name begins with its length. -/
def ToolRuntime.counting : ToolRuntime where
  toSimulatorRuntime := .plain
  urlUuid name := BitVec.ofNat 128 (name.length * 2 ^ 96)

/-- An input of `create`. -/
def reviewInput : CreateTicketInput where
  actorRole := "OPERATOR"
  deviceId := "SIM-001"
  title := "Review"
  description := "Review the sensor."
  priority := "LOW"
  team := "Operations"
  diagnosticEvidence := []

/-- An input of `create` with a longer name. -/
def replacementInput : CreateTicketInput :=
  { reviewInput with title := "Replacement", description := "Replace the sensor." }

/-- A ticket is created, worked on and given to somebody. -/
def otherTicketCalls : List TicketCall :=
  [.create replacementInput,
    .update (replacementInput.ticketId .counting) (some "IN_PROGRESS") none none,
    .assign (replacementInput.ticketId .counting) "operator-2"]

/-- After the calls on the other ticket, which is there as they have left it, a creation adds
one. -/
theorem create_addsOne_afterOther :
    (((TicketDomainService.new oneDeviceService).afterAll .counting otherTicketCalls).tickets.get?
        (replacementInput.ticketId .counting)).map
        (fun ticket => (ticket.status, ticket.assignee)) =
      some ("IN_PROGRESS", some "operator-2") ∧
    ((TicketDomainService.new oneDeviceService).afterAll .counting otherTicketCalls).AddsOne
      (((TicketDomainService.new oneDeviceService).afterAll .counting otherTicketCalls).create
        .counting reviewInput).2 :=
  ⟨by decide +kernel,
    (create_addsOne_iff .counting oneDeviceService otherTicketCalls reviewInput rfl).mpr
      (by decide +kernel)⟩

/-- A ticket is created, closed and created again from the same input. -/
def closedAndRepeated : List TicketCall :=
  [.create reviewInput, .update (reviewInput.ticketId .counting) (some "CLOSED") none none]

/-- Creating a ticket again from the same input opens the closed ticket and adds none. -/
theorem create_reopens :
    ¬ ∀ (rt : ToolRuntime) (devices : DeviceDomainService) (calls : List TicketCall)
      (payload : CreateTicketInput), payload.Valid devices →
        ((TicketDomainService.new devices).afterAll rt calls).AddsOne
          (((TicketDomainService.new devices).afterAll rt calls).create rt payload).2 := by
  intro hclaim
  have hvalid : reviewInput.Valid oneDeviceService := rfl
  have hadds := hclaim .counting oneDeviceService closedAndRepeated reviewInput hvalid
  have hdevices := deviceService_afterAll .counting closedAndRepeated
    (TicketDomainService.new oneDeviceService)
  have hfresh := (create_addsOne (by rw [hdevices]; exact hvalid)).mp hadds
  rw [← Option.not_isSome_iff_eq_none, isSome_afterAll] at hfresh
  exact hfresh (.inr ⟨reviewInput, List.mem_cons_self .., rfl⟩)

end McpOps
