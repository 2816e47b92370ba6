import Echo.Auth.AccessTokens

/-! The ways in: `AuthUser`, the tickets of `routes/auth.rs` and `routes/ws.rs`, the tickets and
downloads of `routes/media.rs`. Handlers go step by step, and what they do beside is left out. -/
namespace Echo.Auth
open Echo.Lib
open Echo.Server (Uuid UuidFormat)

/-- Where a ticket comes from, which the server does not keep: the header of the request, and how
much of the history there was when it was authorized and when the ticket was stored. -/
structure Grant where
  header : String
  asked : Nat
  issued : Nat
  deriving DecidableEq

structure MediaTicket where
  userId : Uuid
  createdAt : Nat
  grant : Grant

structure WsTicket where
  userId : Uuid
  deviceId : Int
  createdAt : Nat
  grant : Grant

inductive Asking where
  | nothing
  | requestMediaTicket
  | wsTicket (deviceId : Option Int)

/-- How far a handler of tickets has come: its ticket and its `now` are drawn first. -/
inductive Phase where
  | authorized
  | cleaned (ticket : String) (now : Nat)
  | counted (ticket : String) (now : Nat)

structure Pending where
  userId : Uuid
  header : String
  asked : Nat
  asking : Asking
  phase : Phase

/-- `history` are the mints and invalidations there were, in order. -/
structure Doors where
  tokenInvalidator : TokenInvalidator := .new
  mediaTickets : LinkedMap String MediaTicket := .empty
  ticketStore : LinkedMap String WsTicket := .empty
  /-- The random tickets to come. -/
  random : Nat → String
  pending : List Pending := []
  history : List (Nat × Event) := []

def mediaTicketTtl : Nat := 300 * 1000000000

def maxMediaTickets : Nat := 100000

def wsTicketTtl : Nat := 30 * 1000000000

def maxWsTickets : Nat := 10000

structure MediaDownloadQuery where
  ticket : Option String
  token : Option String

inductive Door where
  | authUser (authorization : Option String) (asking : Asking)
  | download (authorization : Option String) (query : MediaDownloadQuery)
  /-- With what `find_by_id` answers. -/
  | wsUpgrade (ticket : String) (user : Except Unit (Option String))

inductive Step where
  | createToken (userId : Uuid)
  | invalidate (userId : Uuid)
  | request (door : Door)
  /-- The next step of a handler under way. -/
  | proceed (k : Nat)

namespace Doors
variable (J : Jwt) (F : UuidFormat) (secret : String)

def validateMediaTicket (s : Doors) (ticket : String) (now : Nat) : Except AppError Uuid × Doors :=
  match s.mediaTickets.find ticket with
  | none => (.error (.unauthorized "Invalid or expired media ticket"), s)
  | some entry =>
    if mediaTicketTtl ≤ now - entry.createdAt then
      (.error (.unauthorized "Invalid or expired media ticket"), { s with mediaTickets := s.mediaTickets.erase ticket })
    else (.ok entry.userId, s)

/-- Also what `download_thumb` does in place. -/
def extractUserId (s : Doors) (query : MediaDownloadQuery) (authorization : Option String) (now : Nat) :
    Except AppError Uuid × Doors :=
  match authorization.bind bearerToken with
  | some token =>
    match validateToken J token secret now with
    | .error e => (.error e, s)
    | .ok claims =>
      match F.parse claims.sub with
      | none => (.error (.unauthorized "Invalid user ID in token"), s)
      | some userId => (.ok userId, s)
  | none =>
    match query.ticket.or query.token with
    | some ticket => s.validateMediaTicket ticket now
    | none => (.error (.unauthorized "Missing authentication"), s)

/-- The ticket is taken out if it has not expired, and else the others that have are. -/
def wsUpgrade (s : Doors) (ticket : String) (user : Except Unit (Option String)) (now : Nat) :
    Except AppError Uuid × Doors :=
  match (s.ticketStore.find ticket).filter fun entry => now - entry.createdAt < wsTicketTtl with
  | none =>
    (.error (.unauthorized "Invalid or expired WebSocket ticket"),
      { s with ticketStore := s.ticketStore.keep fun e => now - e.2.createdAt < wsTicketTtl })
  | some entry =>
    let taken := { s with ticketStore := s.ticketStore.erase ticket }
    match user with
    | .error _ => (.error (.internal "Database error"), taken)
    | .ok none => (.error (.unauthorized "User not found"), taken)
    | .ok (some _) => (.ok entry.userId, taken)

def answer (s : Doors) (now : Nat) : Door → Except AppError Uuid × Doors
  | .authUser authorization asking =>
    match authorization, fromRequestParts J F secret s.tokenInvalidator authorization now with
    | some header, .ok userId =>
      (.ok userId, { s with pending := s.pending ++ [⟨userId, header, s.history.length, asking, .authorized⟩] })
    | _, result => (result, s)
  | .download authorization query => s.extractUserId J F secret query authorization now
  | .wsUpgrade ticket user => s.wsUpgrade ticket user now

def setPending (s : Doors) (k : Nat) (p : Pending) : Doors := { s with pending := s.pending.set k p }

def endPending (s : Doors) (k : Nat) : Doors := { s with pending := s.pending.eraseIdx k }

/-- `request_media_ticket` and `ws_ticket`: draw, drop the expired tickets, count, store. -/
def proceed (s : Doors) (now k : Nat) : Doors :=
  match s.pending[k]? with
  | none => s
  | some p =>
    match p.asking, p.phase with
    | .nothing, _ => s.endPending k
    | .requestMediaTicket, .authorized =>
      { s.setPending k { p with phase := .cleaned (s.random 0) now } with
        random := fun n => s.random (n + 1)
        mediaTickets := s.mediaTickets.keep fun e => now - e.2.createdAt < mediaTicketTtl }
    | .wsTicket _, .authorized =>
      { s.setPending k { p with phase := .cleaned (s.random 0) now } with
        random := fun n => s.random (n + 1)
        ticketStore := s.ticketStore.keep fun e => now - e.2.createdAt < wsTicketTtl }
    | .requestMediaTicket, .cleaned ticket since =>
      if maxMediaTickets ≤ s.mediaTickets.entries.length then s.endPending k
      else s.setPending k { p with phase := .counted ticket since }
    | .wsTicket _, .cleaned ticket since =>
      if maxWsTickets ≤ s.ticketStore.entries.length then s.endPending k
      else s.setPending k { p with phase := .counted ticket since }
    | .requestMediaTicket, .counted ticket since =>
      { s.endPending k with
        mediaTickets := s.mediaTickets.insert ticket ⟨p.userId, since, p.header, p.asked, s.history.length⟩ }
    | .wsTicket deviceId, .counted ticket since =>
      { s.endPending k with
        ticketStore := s.ticketStore.insert ticket
          ⟨p.userId, deviceId.getD 0, since, p.header, p.asked, s.history.length⟩ }

def step (s : Doors) : Nat × Step → Doors
  | (now, .createToken userId) => { s with history := s.history ++ [(now, .createToken userId)] }
  | (now, .invalidate userId) =>
    { s with
      tokenInvalidator := s.tokenInvalidator.invalidate userId now
      history := s.history ++ [(now, .invalidate userId)] }
  | (now, .request door) => (s.answer J F secret now door).2
  | (now, .proceed k) => s.proceed now k

def run (random : Nat → String) (steps : List (Nat × Step)) : Doors :=
  steps.foldl (step J F secret) { random := random }

def credential (s : Doors) : Door → Option Grant
  | .authUser authorization _ => authorization.map fun header => ⟨header, s.history.length, s.history.length⟩
  | .download authorization query =>
    match authorization.filter fun header => (bearerToken header).isSome with
    | some header => some ⟨header, s.history.length, s.history.length⟩
    | none => ((query.ticket.or query.token).bind s.mediaTickets.find).map MediaTicket.grant
  | .wsUpgrade ticket _ => (s.ticketStore.find ticket).map WsTicket.grant

end Doors
end Echo.Auth
