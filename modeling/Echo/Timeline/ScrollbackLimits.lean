import Echo.Timeline.Chronology
import Echo.Timeline.Scrollback

/-! What the cap hides from a client that scrolls back: in a conversation whose timestamps are read in their order, the
newest messages up to the cap are all that is ever held. -/
namespace Echo.Timeline.Reader
open ChatState Chat
open Echo.Lib (Clock codes cutOff newest cutOff_append_newest countP_lt_of_kept)
open Echo.Lib.Paging
open Echo.Server (Uuid MessageRow Database)
variable {r : Reader} {db : Database} {conversationId : Uuid} {channelId : Option Uuid} {limit : Nat}

/-- No two messages of one id or of one moment, and the texts of the moments are in their order. -/
structure Aligned (r : Reader) (rows : List MessageRow) : Prop where
  ids : (rows.map MessageRow.id).Nodup
  moments : (rows.map MessageRow.createdAt).Nodup
  texts : ∀ m ∈ rows, ∀ m' ∈ rows, m.createdAt < m'.createdAt →
    codeUnits (r.wire.timestamp m.createdAt) < codeUnits (r.wire.timestamp m'.createdAt)

def rank (rows : List MessageRow) (m : MessageRow) : Nat := rows.countP fun m' => m.createdAt < m'.createdAt

/-- The list holds messages of the conversation, each once, with everything newer. -/
structure Upward (r : Reader) (rows : List MessageRow) (messages : List ChatMessage) : Prop where
  read : ∀ x ∈ messages, ∃ m ∈ rows, ReadFrom r m x
  once : (ids messages).Nodup
  newer : ∀ m ∈ rows, r.wire.uuid.text m.id ∈ ids messages → ∀ m' ∈ rows, m.createdAt < m'.createdAt →
    r.wire.uuid.text m'.id ∈ ids messages

section Cut
variable {rows : List MessageRow} {messages : List ChatMessage}

theorem uuid_injective (w : HistoryWire) {a b : Uuid} (same : w.uuid.text a = w.uuid.text b) : a = b :=
  Option.some.inj ((w.uuid.parse_text a).symm.trans ((congrArg w.uuid.parse same).trans (w.uuid.parse_text b)))

theorem Aligned.row_of_id (aligned : Aligned r rows) {m m' : MessageRow} (mem : m ∈ rows) (mem' : m' ∈ rows)
    (same : r.wire.uuid.text m.id = r.wire.uuid.text m'.id) : m = m' :=
  List.inj_on_of_nodup_map aligned.ids mem mem' (uuid_injective r.wire same)

theorem Upward.message (upward : Upward r rows messages) (aligned : Aligned r rows) {m : MessageRow} (mem : m ∈ rows)
    (held : r.wire.uuid.text m.id ∈ ids messages) : ∃ x ∈ messages, ReadFrom r m x := by
  obtain ⟨x, inside, same⟩ := List.mem_map.mp held
  obtain ⟨m', mem', read⟩ := upward.read x inside
  obtain rfl := aligned.row_of_id mem' mem (read.id.symm.trans same)
  exact ⟨x, inside, read⟩

variable (sorted : messages.Pairwise fun a b => codeUnits a.timestamp ≤ codeUnits b.timestamp)
include sorted

theorem Upward.rank_lt (upward : Upward r rows messages) (aligned : Aligned r rows) {m : MessageRow} (mem : m ∈ rows)
    (kept : r.wire.uuid.text m.id ∈ ids (newest maxMessagesPerConv messages)) : rank rows m < maxMessagesPerConv := by
  obtain ⟨x, inside, same⟩ := List.mem_map.mp kept
  have listed : x ∈ messages := (List.drop_sublist _ _).subset inside
  obtain ⟨m', mem', read⟩ := upward.read x listed
  obtain rfl := aligned.row_of_id mem' mem (read.id.symm.trans same)
  refine lt_of_le_of_lt ?_ (countP_lt_of_kept sorted inside)
  have apart : ((rows.filter fun m => m'.createdAt < m.createdAt).map fun m => r.wire.uuid.text m.id).Nodup := by
    have distinct := aligned.ids.sublist ((List.filter_sublist (p := fun m => m'.createdAt < m.createdAt)).map _)
    rw [← Function.comp_def r.wire.uuid.text, ← List.map_map]
    exact distinct.map fun _ _ same => uuid_injective r.wire same
  have subset : ((rows.filter fun m => m'.createdAt < m.createdAt).map fun m => r.wire.uuid.text m.id) ⊆
      ids (messages.filter fun a => codeUnits x.timestamp < codeUnits a.timestamp) := by
    intro text mem_text
    obtain ⟨m, mem, rfl⟩ := List.mem_map.mp mem_text
    obtain ⟨mem, later⟩ := List.mem_filter.mp mem
    have later := of_decide_eq_true later
    obtain ⟨y, listed', read'⟩ := upward.message aligned mem
      (upward.newer m' mem' (read.id ▸ List.mem_map_of_mem listed) m mem later)
    rw [← read'.id]
    refine List.mem_map_of_mem (List.mem_filter.mpr ⟨listed', decide_eq_true ?_⟩)
    rw [read.timestamp, read'.timestamp]
    exact aligned.texts m' mem' m mem later
  have count := (List.subperm_of_subset apart subset).length_le
  rw [List.length_map, List.length_map] at count
  rw [rank, List.countP_eq_length_filter, List.countP_eq_length_filter]
  exact count.trans_eq (congrArg List.length (List.filter_congr fun a _ => decide_eq_decide.mpr Iff.rfl))

theorem Upward.newest (upward : Upward r rows messages) (aligned : Aligned r rows) :
    Upward r rows (Lib.newest maxMessagesPerConv messages) where
  read x kept := upward.read x ((List.drop_sublist _ _).subset kept)
  once := upward.once.sublist ((List.drop_sublist _ _).map _)
  newer m mem kept m' mem' later := by
    have listed : r.wire.uuid.text m.id ∈ ids messages := ((List.drop_sublist _ _).map _).subset kept
    obtain ⟨x, inside, same⟩ := List.mem_map.mp kept
    obtain ⟨m₀, mem₀, read⟩ := upward.read x ((List.drop_sublist _ _).subset inside)
    obtain rfl := aligned.row_of_id mem₀ mem (read.id.symm.trans same)
    obtain ⟨y, listed', read'⟩ := upward.message aligned mem' (upward.newer m₀ mem listed m' mem' later)
    have above := aligned.texts m₀ mem m' mem' later
    rw [← read.timestamp, ← read'.timestamp] at above
    rw [← cutOff_append_newest maxMessagesPerConv messages] at listed' sorted
    rcases List.mem_append.mp listed' with gone | kept'
    · exact absurd above ((List.pairwise_append.mp sorted).2.2 y gone x inside).not_gt
    · rw [← read'.id]
      exact List.mem_map_of_mem kept'

end Cut

section Run

theorem Upward.join {rows : List MessageRow} {messages newMessages joined : List ChatMessage} {cursor : Option Nat}
    (upward : Upward r rows messages) (aligned : Aligned r rows)
    (from_held : ∀ t, cursor = some t → ∃ m ∈ rows, m.createdAt = t ∧ r.wire.uuid.text m.id ∈ ids messages)
    (answer : List.Forall₂ (ReadFrom r) (page MessageRow.createdAt rows limit cursor) newMessages)
    (perm : joined.Perm (newMessages.filter (fun m => m.id ∉ ids messages) ++ messages)) : Upward r rows joined := by
  constructor
  · intro x mem
    rcases List.mem_append.mp (perm.mem_iff.mp mem) with new | old
    · obtain ⟨m, inside, read⟩ := exists_row answer (List.mem_of_mem_filter new)
      exact ⟨m, (mem_page inside).1, read⟩
    · exact upward.read x old
  · have page_ids : (ids newMessages).Nodup := by
      rw [ids_readFrom answer, ← Function.comp_def r.wire.uuid.text, ← List.map_map]
      obtain ⟨part, same, inside⟩ := page_subperm rows limit cursor
      rw [← ((same.map MessageRow.id).map r.wire.uuid.text).nodup_iff]
      exact (aligned.ids.sublist (inside.map _)).map fun _ _ same => uuid_injective r.wire same
    rw [ids, (perm.map ChatMessage.id).nodup_iff, List.map_append, List.nodup_append']
    refine ⟨page_ids.sublist (List.filter_sublist.map _), upward.once, fun id new old => ?_⟩
    obtain ⟨m, inside, rfl⟩ := List.mem_map.mp new
    exact of_decide_eq_true (List.mem_filter.mp inside).2 old
  · intro m mem held m' mem' later
    rw [mem_ids_joined perm] at held ⊢
    rcases held with new | old
    · rw [ids_readFrom answer] at new ⊢
      obtain ⟨m₀, inside, same⟩ := List.mem_map.mp new
      obtain rfl := aligned.row_of_id (mem_page inside).1 mem same
      cases before : isBefore MessageRow.createdAt cursor m' with
      | true =>
        have left := page_append_left MessageRow.createdAt rows limit cursor
        rcases List.mem_append.mp (left.mem_iff.mpr (List.mem_filter.mpr ⟨mem', before⟩)) with now | next
        · exact Or.inl (List.mem_map_of_mem now)
        · exact absurd later (older_le inside next).not_gt
      | false =>
        right
        cases cursor with
        | none => cases before
        | some t =>
          obtain ⟨m₁, mem₁, rfl, held⟩ := from_held t rfl
          have above : m₁.createdAt ≤ m'.createdAt := not_lt.mp (of_decide_eq_false before)
          rcases above.lt_or_eq with newer | same
          · exact upward.newer m₁ mem₁ held m' mem' newer
          · rwa [← List.inj_on_of_nodup_map aligned.moments mem₁ mem' same]
    · exact Or.inr (upward.newer m mem old m' mem' later)

/-- Nothing beyond the cap is held, and nothing is held without what is newer. -/
structure Capped (r : Reader) (db : Database) (conversationId : Uuid) (channelId : Option Uuid) (s : ChatState) :
    Prop where
  upward : Upward r (timeline db conversationId channelId) (r.held conversationId s)
  sorted : (r.held conversationId s).Pairwise fun a b => codeUnits a.timestamp ≤ codeUnits b.timestamp
  within : ∀ m ∈ timeline db conversationId channelId, r.holds conversationId s m = true →
    rank (timeline db conversationId channelId) m < maxMessagesPerConv

theorem Capped.merge {s : ChatState} {newMessages : List ChatMessage} {cursor : Option Nat}
    (aligned : Aligned r (timeline db conversationId channelId))
    (upward : Upward r (timeline db conversationId channelId) (r.held conversationId s))
    (from_held : ∀ t, cursor = some t → ∃ m ∈ timeline db conversationId channelId,
      m.createdAt = t ∧ r.wire.uuid.text m.id ∈ ids (r.held conversationId s))
    (answer : Answer r db conversationId channelId limit cursor newMessages) :
    Capped r db conversationId channelId
      (mergeMessages r.platform s (r.conversation conversationId) newMessages (r.channel channelId)) := by
  have joined := upward.join aligned from_held answer (merged_joined s newMessages)
  have kept : r.held conversationId
      (mergeMessages r.platform s (r.conversation conversationId) newMessages (r.channel channelId)) =
        newest maxMessagesPerConv (merged r.platform s (r.conversation conversationId) newMessages) :=
    merge_messages s _ newMessages _
  have sorted := r.platform.ordered
    (newMessages.filter (fun m => m.id ∉ idSet (r.held conversationId s)) ++ r.held conversationId s)
  constructor
  · rw [kept]
    exact Upward.newest sorted joined aligned
  · rw [kept]
    exact sorted.sublist (List.drop_sublist _ _)
  · intro m mem held
    rw [holds, kept] at held
    exact Upward.rank_lt sorted joined aligned mem (of_decide_eq_true held)

theorem Capped.loadOlder {s : ChatState} (capped : Capped r db conversationId channelId s)
    (aligned : Aligned r (timeline db conversationId channelId)) (limit : Nat) :
    Capped r db conversationId channelId (r.loadOlderMessages db conversationId channelId limit s) := by
  rw [loadOlderMessages]
  split
  case isFalse => exact capped
  case isTrue =>
    split
    case h_1 => exact capped
    case h_2 oldest found =>
      obtain ⟨visible, shown, -⟩ := shown_eq_filter r db conversationId channelId
      have seen := paginationCursor_mem found
      rw [shown] at seen
      have held := List.mem_of_mem_filter seen
      obtain ⟨m, mem, read⟩ := capped.upward.read oldest held
      obtain ⟨newMessages, answer, made⟩ := load_from db conversationId channelId limit s
        ((congrArg r.wire.parse read.timestamp).trans (r.wire.parse_timestamp m.createdAt))
      rw [made]
      refine Capped.merge aligned capped.upward (fun t same => ⟨m, mem, Option.some.inj same, ?_⟩) answer
      rw [← read.id]
      exact List.mem_map_of_mem held

theorem scrolled_capped {s : ChatState} (aligned : Aligned r (timeline db conversationId channelId))
    (empty : r.held conversationId s = []) (n : Nat) :
    Capped r db conversationId channelId (r.scrolled db conversationId channelId limit s n) := by
  induction n with
  | zero =>
    obtain ⟨newMessages, answer, made⟩ := load_first r db conversationId channelId limit s
    rw [scrolled, made]
    refine Capped.merge aligned ?_ (fun t never => absurd never.symm (Option.some_ne_none t)) answer
    rw [empty]
    exact ⟨fun x mem => absurd mem List.not_mem_nil, List.nodup_nil, fun m _ mem => absurd mem List.not_mem_nil⟩
  | succ n ih => exact ih.loadOlder aligned limit

theorem length_le_of_rank {rows : List MessageRow} {cap : Nat} (moments : (rows.map MessageRow.createdAt).Nodup)
    (few : ∀ m ∈ rows, rank rows m < cap) : rows.length ≤ cap := by
  have perm := newestFirst_perm MessageRow.createdAt rows
  by_contra many
  rw [not_le, ← perm.length_eq] at many
  have sorted : (newestFirst MessageRow.createdAt rows).Pairwise fun a b => b.createdAt < a.createdAt := by
    have apart := (perm.map MessageRow.createdAt).nodup_iff.mpr moments
    exact ((newestFirst_sorted MessageRow.createdAt rows).and (List.pairwise_map.mp apart)).imp fun pair =>
      lt_of_le_of_ne pair.1 (Ne.symm pair.2)
  set m := (newestFirst MessageRow.createdAt rows)[cap] with isM
  have below := few m (perm.mem_iff.mp (List.getElem_mem many))
  have whole : (newestFirst MessageRow.createdAt rows).take cap ++ (newestFirst MessageRow.createdAt rows).drop cap =
      newestFirst MessageRow.createdAt rows := List.take_append_drop _ _
  have later : m ∈ (newestFirst MessageRow.createdAt rows).drop cap := by
    rw [List.drop_eq_getElem_cons many]
    exact List.mem_cons_self
  rw [← whole, List.pairwise_append] at sorted
  have all : ((newestFirst MessageRow.createdAt rows).take cap).countP (fun a => m.createdAt < a.createdAt) = cap := by
    rw [List.countP_eq_length.mpr fun a first => decide_eq_true (sorted.2.2 a first m later), List.length_take]
    omega
  rw [rank, ← perm.countP_eq, ← whole, List.countP_append, all] at below
  omega

theorem ReachesAll.length_le {s : ChatState} (aligned : Aligned r (timeline db conversationId channelId))
    (empty : r.held conversationId s = []) (reaches : r.ReachesAll db conversationId channelId limit s) :
    (timeline db conversationId channelId).length ≤ maxMessagesPerConv := by
  obtain ⟨_, -, all⟩ := reaches.ends
  refine length_le_of_rank aligned.moments fun m mem => ?_
  obtain ⟨k, -, held⟩ := all m mem
  exact (scrolled_capped aligned empty k).within m mem held

theorem clean_of_moments (moments : ((timeline db conversationId channelId).map MessageRow.createdAt).Nodup)
    (enough : 50 ≤ limit) (cursor : Option Nat) : Clean db conversationId channelId limit cursor where
  enough := Or.inl enough
  unbroken := unbroken_of_nodup (moments.sublist (List.filter_sublist.map _)) limit

theorem paginationCursor_head {messages : List ChatMessage} {oldest : ChatMessage}
    (pillless : ∀ x ∈ messages, x.isSystemEvent = false) (found : paginationCursor messages = some oldest) :
    ∃ rest, messages = oldest :: rest := by
  cases messages with
  | nil => cases found
  | cons first rest =>
    rw [paginationCursor, List.find?_cons_of_pos (by rw [pillless first List.mem_cons_self]; rfl)] at found
    exact ⟨rest, by rw [Option.some.inj found]⟩

theorem Capped.unheld {s : ChatState} (capped : Capped r db conversationId channelId s)
    (aligned : Aligned r (timeline db conversationId channelId))
    (pillless : ∀ x ∈ r.held conversationId s, x.isSystemEvent = false) {oldest : ChatMessage}
    (found : paginationCursor (r.shown conversationId channelId s) = some oldest) :
    ((timeline db conversationId channelId).filter
      (isBefore MessageRow.createdAt (r.wire.parse oldest.timestamp))).countP (r.holds conversationId s) = 0 := by
  obtain ⟨visible, shown, own⟩ := shown_eq_filter r db conversationId channelId
  have all : r.shown conversationId channelId s = r.held conversationId s := by
    rw [shown]
    refine List.filter_eq_self.mpr fun x mem => ?_
    obtain ⟨m, inside, read⟩ := capped.upward.read x mem
    exact own m inside x read
  rw [all] at found
  obtain ⟨rest, first⟩ := paginationCursor_head pillless found
  have sorted := capped.sorted
  obtain ⟨m, mem, read⟩ := capped.upward.read oldest (first ▸ List.mem_cons_self)
  rw [read.timestamp, r.wire.parse_timestamp]
  refine List.countP_eq_zero.mpr fun m' earlier held => ?_
  obtain ⟨mem', before⟩ := List.mem_filter.mp earlier
  have before := aligned.texts m' mem' m mem (of_decide_eq_true before)
  obtain ⟨x, inside, read'⟩ := capped.upward.message aligned mem' (of_decide_eq_true held)
  rw [← read.timestamp, ← read'.timestamp] at before
  rw [first] at inside sorted
  rcases List.mem_cons.mp inside with rfl | later
  · exact lt_irrefl _ before
  · exact ((List.pairwise_cons.mp sorted).1 x later).not_gt before

theorem unhindered_of_aligned {s : ChatState} (aligned : Aligned r (timeline db conversationId channelId))
    (empty : r.held conversationId s = []) (enough : 50 ≤ limit)
    (pillless : ∀ n, ∀ x ∈ r.held conversationId (r.scrolled db conversationId channelId limit s n),
      x.isSystemEvent = false) (fits : (timeline db conversationId channelId).length ≤ maxMessagesPerConv) :
    r.Unhindered db conversationId channelId limit s := by
  obtain ⟨visible, shown, -⟩ := shown_eq_filter r db conversationId channelId
  have blank : r.shown conversationId channelId s = [] := by rw [shown, empty, List.filter_nil]
  have none_held : ∀ m, r.holds conversationId s m = false := fun m => by
    rw [holds, empty]
    exact decide_eq_false List.not_mem_nil
  refine ⟨⟨?_, ?_, ?_, ?_⟩, ?_, ?_, ?_⟩
  · exact fun _ _ _ x mem => absurd (blank ▸ mem) List.not_mem_nil
  · exact fun m _ held => absurd held (by rw [none_held]; exact Bool.false_ne_true)
  · exact fun x mem => absurd (blank ▸ mem) List.not_mem_nil
  · rw [empty, List.length_nil, Nat.add_zero]
    exact List.countP_le_length.trans fits
  · exact clean_of_moments aligned.moments enough none
  · exact fun n _ oldest _ => clean_of_moments aligned.moments enough _
  · intro n _ oldest found
    rw [(scrolled_capped aligned empty n).unheld aligned (pillless n) found]
    decide

/-- Unhindered, scrolling back reaches the whole conversation. In one without system events, with no two messages of one
moment and the texts in their order, the cap alone tells whether it does. -/
theorem scrollback_reaches_all (r : Reader) (db : Database) (conversationId : Uuid) (channelId : Option Uuid)
    (limit : Nat) (s : ChatState) :
    (r.Unhindered db conversationId channelId limit s → r.ReachesAll db conversationId channelId limit s) ∧
      (Aligned r (timeline db conversationId channelId) → r.held conversationId s = [] → 50 ≤ limit →
        (∀ n, ∀ x ∈ r.held conversationId (r.scrolled db conversationId channelId limit s n),
          x.isSystemEvent = false) →
        (r.ReachesAll db conversationId channelId limit s ↔
          (timeline db conversationId channelId).length ≤ maxMessagesPerConv)) := by
  refine ⟨Unhindered.reachesAll, fun aligned empty enough pillless => ⟨ReachesAll.length_le aligned empty, ?_⟩⟩
  exact fun fits => (unhindered_of_aligned aligned empty enough pillless fits).reachesAll

end Run

section Samples

def hourClock (t : Nat) : Clock :=
  { noon (Fin.ofNat 60 t) 0 with minute := Fin.ofNat 60 (t / 60), minute_lt := (Fin.ofNat 60 (t / 60)).isLt }

theorem hourClock_seconds (t : Nat) : (hourClock t).seconds = (hourClock 0).seconds + t % 3600 := by
  have days : (hourClock t).days = (hourClock 0).days := rfl
  have minute : (hourClock t).minute = t / 60 % 60 := rfl
  have second : (hourClock t).second = t % 60 := rfl
  have hour : (hourClock t).hour = 12 := rfl
  rw [Clock.seconds, Clock.seconds, days, minute, second, hour]
  change _ = (((hourClock 0).days * 24 + 12) * 60 + 0) * 60 + 0 + t % 3600
  omega

/-- What `chrono` writes within the hour; later moments get texts of their own. -/
def hourText (t : Nat) : List Char := (hourClock t).dateTime ++ List.replicate (t / 3600 + 1) 'Z'

theorem hourText_length (t : Nat) : (hourText t).length = 20 + t / 3600 := by
  have date := (hourClock t).dateTime_length
  rw [codes, List.length_map] at date
  rw [hourText, List.length_append, date, List.length_replicate]
  omega

theorem hourText_injective {t u : Nat} (same : hourText t = hourText u) : t = u := by
  have hours : t / 3600 = u / 3600 := by
    have lengths := congrArg List.length same
    rw [hourText_length, hourText_length] at lengths
    omega
  rw [hourText, hourText, hours] at same
  have seconds := Clock.dateTime_eq_iff.mp (congrArg codes (List.append_cancel_right same))
  rw [hourClock_seconds, hourClock_seconds u] at seconds
  omega

theorem hourText_stamp {t : Nat} (within : t < 3600) : String.ofList (hourText t) = (Stamp.utc (hourClock t)).text := by
  rw [hourText, Nat.div_eq_of_lt within]
  rfl

theorem find_hourText (t : Nat) :
    (List.range (3600 * (hourText t).length)).find? (fun u => hourText u == hourText t) = some t := by
  have listed : t ∈ List.range (3600 * (hourText t).length) := by
    rw [List.mem_range, hourText_length]
    omega
  cases found : (List.range (3600 * (hourText t).length)).find? fun u => hourText u == hourText t with
  | none => exact absurd (beq_self_eq_true (hourText t)) (List.find?_eq_none.mp found t listed)
  | some u =>
    have same : hourText u = hourText t :=
        beq_iff_eq.mp (List.find?_some (p := fun u => hourText u == hourText t) found)
    exact congrArg some (hourText_injective same)

theorem unary_trimmed (id : Nat) : trimmed (String.ofList (List.replicate (id + 1) 'x')) =
    String.ofList (List.replicate (id + 1) 'x') := by
  have plain : ∀ c ∈ List.replicate (id + 1) 'x', (Server.isWhitespace c || c == '\uFEFF') = false := by
    intro c mem
    rw [List.eq_of_mem_replicate mem]
    decide
  rw [trimmed, String.toList_ofList, Lib.trimBy_eq]
  · exact fun c first => plain c (List.mem_of_mem_head? first)
  · exact fun c last => plain c (List.mem_of_mem_getLast? last)

theorem unary_ne (id : Nat) : String.ofList (List.replicate (id + 1) 'x') ≠ "" := by
  intro empty
  have lengths := congrArg String.length empty
  simp at lengths

theorem unary_parse (id : Nat) : (some ((String.ofList (List.replicate (id + 1) 'x')).length - 1) : Option Nat) =
    some id := by
  simp

theorem hour_parse (t : Nat) :
    ((List.range (3600 * (String.ofList (hourText t)).length)).find? fun u =>
      hourText u == (String.ofList (hourText t)).toList) = some t := by
  rw [String.length_ofList, String.toList_ofList]
  exact find_hourText t

def hourWire : HistoryWire where
  uuid := ⟨fun id => String.ofList (List.replicate (id + 1) 'x'), fun text => some (text.length - 1), unary_parse⟩
  uuid_trimmed := unary_trimmed
  uuid_ne := unary_ne
  timestamp t := String.ofList (hourText t)
  parse text := (List.range (3600 * text.length)).find? fun u => hourText u == text.toList
  parse_timestamp := hour_parse

def hourReader : Reader where
  platform := stablePlatform
  dates := ⟨fun _ => none, "2026-01-01T13:00:00.000Z"⟩
  wire := hourWire
  userId := 2
  deviceId := none
  decryptIfNeeded _ msg := msg
  keeps_id _ _ := rfl
  keeps_timestamp _ _ := rfl
  keeps_channel _ _ := rfl

def hourRow (t : Nat) : MessageRow := ⟨t, 1, none, 3, none, "hi", t, none, none, none, false⟩

def hourDb (messages : Nat) : Database where
  username id := toString id
  conversations := .empty
  members _ := .empty
  contacts := []
  directConversations := .empty
  channels := []
  messages := (List.range messages).map hourRow
  deviceContents := []
  deliveries := []
  blockedUsers := []
  revokedDevices := []

theorem hour_timeline (messages : Nat) : timeline (hourDb messages) 1 none = (List.range messages).map hourRow := by
  refine List.filter_eq_self.mpr fun m mem => ?_
  obtain ⟨t, -, rfl⟩ := List.mem_map.mp mem
  rfl

theorem hour_aligned {messages : Nat} (within : messages ≤ 3600) :
    Aligned hourReader (timeline (hourDb messages) 1 none) := by
  rw [hour_timeline]
  constructor
  · rw [List.map_map]
    exact (List.map_id _).symm ▸ List.nodup_range
  · rw [List.map_map]
    exact (List.map_id _).symm ▸ List.nodup_range
  · intro m mem m' mem' before
    obtain ⟨t, inside, rfl⟩ := List.mem_map.mp mem
    obtain ⟨u, inside', rfl⟩ := List.mem_map.mp mem'
    have left : t < 3600 := (List.mem_range.mp inside).trans_le within
    have right : u < 3600 := (List.mem_range.mp inside').trans_le within
    change codeUnits (String.ofList (hourText t)) < codeUnits (String.ofList (hourText u))
    rw [hourText_stamp left, hourText_stamp right, codeUnits_lt_iff]
    refine Or.inl ?_
    change (hourClock t).seconds < (hourClock u).seconds
    rw [hourClock_seconds, hourClock_seconds u, Nat.mod_eq_of_lt left, Nat.mod_eq_of_lt right]
    exact Nat.add_lt_add_left before _

/-- Of 551 messages, one a second, a client that opens the conversation and scrolls back never sees the oldest. -/
theorem hour_beyond_cap : ¬ hourReader.ReachesAll (hourDb 551) 1 none 50 {} := by
  intro reaches
  have fits := reaches.length_le (hour_aligned (by decide)) rfl
  rw [hour_timeline, List.length_map, List.length_range] at fits
  exact absurd fits (by decide)

theorem hour_two (n : Nat) : hourReader.scrolled (hourDb 2) 1 none 50 {} n = hourReader.scrolled (hourDb 2)
    1 none 50 {} 0 := by
  obtain ⟨newMessages, answer, made⟩ := load_first hourReader (hourDb 2) 1 none 50 {}
  have few : newMessages.length ≤ 2 := by
    rw [answer.length]
    refine (Nat.min_le_right _ _).trans ((List.length_filter_le _ _).trans ?_)
    rw [hour_timeline, List.length_map, List.length_range]
  have done : hourReader.hasMore 1 none (hourReader.scrolled (hourDb 2) 1 none 50 {} 0) = false := by
    rw [scrolled, made]
    exact (merge_hasMore _ newMessages).trans (decide_eq_false (by omega))
  induction n with
  | zero => rfl
  | succ n ih => exact (congrArg _ ih).trans (loadOlderMessages_done done)

theorem hour_two_reached :
    hourReader.ReachesAll (hourDb 2) 1 none 50 {} ∧
      (hourReader.ReachesAll (hourDb 2) 1 none 50 {} ↔
        (timeline (hourDb 2) 1 none).length ≤ maxMessagesPerConv) := by
  have aligned : Aligned hourReader (timeline (hourDb 2) 1 none) := hour_aligned (by decide)
  have pillless : ∀ n, ∀ x ∈ hourReader.held 1 (hourReader.scrolled (hourDb 2) 1 none 50 {} n),
      x.isSystemEvent = false := by
    intro n
    rw [hour_two]
    decide +kernel
  have fits : (timeline (hourDb 2) 1 none).length ≤ maxMessagesPerConv := by
    rw [hour_timeline, List.length_map, List.length_range]
    decide
  obtain ⟨enough, exactly⟩ := scrollback_reaches_all hourReader (hourDb 2) 1 none 50 {}
  exact ⟨enough (unhindered_of_aligned aligned rfl le_rfl pillless fits), exactly aligned rfl le_rfl pillless⟩

end Samples
end Echo.Timeline.Reader
