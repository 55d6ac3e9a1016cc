import Mathlib.Data.List.Infix
import McpOps.Tools.Devices

/-!
# The ticket service of the MCP servers

`TicketDomainService`: the tickets of a server, each under its own id.  The id of a new ticket is
derived from the input alone, so that creating a ticket twice stores it once.

A ticket is created for a device that the device service knows; the ticket service reads its
devices and never writes to them.  `updated` and `assigned` are what the two other writing
handlers leave of a ticket, and `modify` is the part that they share.  The search and the list of
open tickets go through the tickets in the order in which they were stored.
-/

namespace McpOps

/-- What is taken from Python's library. -/
structure ToolRuntime extends SimulatorRuntime where
  /-- `uuid.uuid5(uuid.NAMESPACE_URL, name)` -/
  urlUuid : String → UUID

/-! ## Tickets -/

structure Ticket where
  ticketId : String
  title : String
  description : String
  deviceId : String
  priority : String
  status : String
  assignee : Option String
  team : String
  createdBy : String
  diagnosticEvidence : PyDict

/-- `ticket.__dict__`. -/
def Ticket.asDict (ticket : Ticket) : PyDict :=
  [("ticket_id", .str ticket.ticketId), ("title", .str ticket.title),
    ("description", .str ticket.description), ("device_id", .str ticket.deviceId),
    ("priority", .str ticket.priority), ("status", .str ticket.status),
    ("assignee", ticket.assignee.elim .null .str), ("team", .str ticket.team),
    ("created_by", .str ticket.createdBy), ("diagnostic_evidence", .dict ticket.diagnosticEvidence)]

structure CreateTicketInput where
  actorRole : String
  deviceId : String
  title : String
  description : String
  priority : String
  team : String
  diagnosticEvidence : PyDict

/-- `model.model_dump()`. -/
def CreateTicketInput.modelDump (payload : CreateTicketInput) : PyDict :=
  [("actor_role", .str payload.actorRole), ("device_id", .str payload.deviceId),
    ("title", .str payload.title), ("description", .str payload.description),
    ("priority", .str payload.priority), ("team", .str payload.team),
    ("diagnostic_evidence", .dict payload.diagnosticEvidence)]

/-- The id of the ticket that `create` makes. -/
def CreateTicketInput.ticketId (rt : ToolRuntime) (payload : CreateTicketInput) : String :=
  let name := "TCK-" ++ (rt.urlUuid (rt.str (.dict payload.modelDump))).str
  String.ofList (name.toList.take 12)

/-- The ticket that `create` makes. -/
def CreateTicketInput.ticket (rt : ToolRuntime) (payload : CreateTicketInput) : Ticket where
  ticketId := payload.ticketId rt
  title := payload.title
  description := payload.description
  deviceId := payload.deviceId
  priority := payload.priority
  status := "OPEN"
  assignee := none
  team := payload.team
  createdBy := payload.actorRole
  diagnosticEvidence := payload.diagnosticEvidence

/-- `value`, unless it is missing or empty. -/
def givenOr (value : Option String) (present : String) : String :=
  match value with
  | some text => if text = "" then present else text
  | none => present

/-- The ticket as `update` leaves it. -/
def Ticket.updated (status priority description : Option String) (ticket : Ticket) : Ticket :=
  { ticket with
    status := givenOr status ticket.status
    priority := givenOr priority ticket.priority
    description := givenOr description ticket.description }

/-- The ticket as `assign` leaves it. -/
def Ticket.assigned (assignee : String) (ticket : Ticket) : Ticket :=
  { ticket with assignee := some assignee }

/-! ## The service -/

/-- A ticket service.  It reads its devices and never writes to them. -/
structure TicketDomainService where
  deviceService : DeviceDomainService
  tickets : Dict String Ticket
  keyed : ∀ ticketId ticket, tickets.get? ticketId = some ticket → ticket.ticketId = ticketId

namespace TicketDomainService

/-- Store a ticket under its id. -/
def put (ticket : Ticket) (s : TicketDomainService) : TicketDomainService where
  deviceService := s.deviceService
  tickets := s.tickets.set ticket.ticketId ticket
  keyed ticketId found hfound := by
    rw [Dict.get?_set] at hfound
    split at hfound
    · cases hfound
      exact Eq.symm ‹_›
    · exact s.keyed ticketId found hfound

/-- The ticket that every service starts with. -/
def seedTicket : Ticket where
  ticketId := "TCK-014"
  title := "Maintenance review for SIM-014"
  description := "Investigate telemetry timeout and sensor ingestor failure."
  deviceId := "SIM-014"
  priority := "CRITICAL"
  status := "OPEN"
  assignee := some "operator@example.internal"
  team := "Simulator Operations"
  createdBy := "seed"
  diagnosticEvidence := [("error_code", .str "E-SENSOR-INIT")]

/-- `TicketDomainService(device_service)`. -/
def new (deviceService : DeviceDomainService) : TicketDomainService :=
  put seedTicket ⟨deviceService, Dict.empty, fun _ _ hfound => by cases hfound⟩

/-- `{"ticket": ticket.__dict__}`. -/
def shown (ticket : Ticket) : PyDict := [("ticket", .dict ticket.asDict)]

/-- `_ticket(ticket_id)`. -/
def ticket (ticketId : String) (s : TicketDomainService) : Except HandlerFailure Ticket :=
  match s.tickets.get? ticketId with
  | some ticket => .ok ticket
  | none => .error (.domain (ticketNotFound s!"Ticket {ticketId} was not found."))

variable (rt : ToolRuntime)

/-- `create(payload, actor_role)`. -/
def create (payload : CreateTicketInput) (s : TicketDomainService) :
    HandlerResult × TicketDomainService :=
  match s.deviceService.device payload.deviceId with
  | .error e => (.error e, s)
  | .ok _ => (.ok (shown (payload.ticket rt)), s.put (payload.ticket rt))

/-- `get(ticket_id)`. -/
def get (ticketId : String) (s : TicketDomainService) : HandlerResult :=
  (s.ticket ticketId).map shown

/-- Change a ticket in place. -/
def modify (ticketId : String) (change : Ticket → Ticket) (s : TicketDomainService) :
    HandlerResult × TicketDomainService :=
  match s.ticket ticketId with
  | .error e => (.error e, s)
  | .ok ticket => (.ok (shown (change ticket)), s.put (change ticket))

/-- `update(ticket_id, status, priority, description)`. -/
def update (ticketId : String) (status priority description : Option String)
    (s : TicketDomainService) : HandlerResult × TicketDomainService :=
  s.modify ticketId (Ticket.updated status priority description)

/-- `assign(ticket_id, assignee)`. -/
def assign (ticketId assignee : String) (s : TicketDomainService) :
    HandlerResult × TicketDomainService :=
  s.modify ticketId (Ticket.assigned assignee)

/-- `p`, unless there is nothing to compare with. -/
def ifGiven (value : Option String) (p : String → Bool) : Bool :=
  match value with
  | some text => text = "" ∨ p text
  | none => true

/-- The tickets that `search` finds. -/
def found (query status deviceId : Option String) (limit : ℕ) (s : TicketDomainService) :
    List Ticket :=
  (s.tickets.values.filter fun ticket =>
    ifGiven query (fun text =>
      decide ((rt.lower text).toList <:+: (rt.lower ticket.title).toList)) ∧
    ifGiven status (fun text => ticket.status = text) ∧
    ifGiven deviceId (fun text => ticket.deviceId = text)).take limit

/-- `search(query, status, device_id, limit)`. -/
def search (query status deviceId : Option String) (limit : ℕ) (s : TicketDomainService) :
    HandlerResult :=
  .ok [("tickets", .list ((s.found rt query status deviceId limit).map (.dict ·.asDict)))]

/-- `open_tickets(limit)`. -/
def openTickets (limit : ℕ) (s : TicketDomainService) : HandlerResult :=
  s.search rt none (some "OPEN") none limit

end TicketDomainService

/-! ## Calls -/

/-- The call of a handler, with the fields of its input that it takes. -/
inductive TicketCall where
  | create (payload : CreateTicketInput)
  | get (ticketId : String)
  | update (ticketId : String) (status priority description : Option String)
  | assign (ticketId assignee : String)
  | search (query status deviceId : Option String) (limit : ℕ)
  | openTickets (limit : ℕ)

/-- A call of a handler. -/
def TicketDomainService.call (rt : ToolRuntime) (s : TicketDomainService) :
    TicketCall → HandlerResult × TicketDomainService
  | .create payload => s.create rt payload
  | .get ticketId => (s.get ticketId, s)
  | .update ticketId status priority description => s.update ticketId status priority description
  | .assign ticketId assignee => s.assign ticketId assignee
  | .search query status deviceId limit => (s.search rt query status deviceId limit, s)
  | .openTickets limit => (s.openTickets rt limit, s)

end McpOps
