import Echo.Groups.Election
import Echo.Lib.Text

/-! The rotation-requested event on the wire: what `broadcast_rotation_requested` writes as JSON, what
`parseRotationRequested` reads of it, and the slot of each client. -/
namespace Echo.Groups
open Echo.Lib
open Echo.Server (Uuid)

inductive Json where
  | null
  | bool (value : Bool)
  | number (value : Int)
  | string (text : String)
  | array (items : List Json)
  | object (fields : List (String × Json))

/-- A failed `as` cast. -/
inductive CastError where
  | notString
  | notNumber
  deriving DecidableEq

namespace Json

def asString : Option Json → Except CastError (Option String)
  | none | some .null => .ok none
  | some (.string text) => .ok (some text)
  | some _ => .error .notString

def asNumber : Option Json → Except CastError (Option Int)
  | none | some .null => .ok none
  | some (.number value) => .ok (some value)
  | some _ => .error .notNumber

def text? : Json → Option String
  | .string text => some text
  | _ => none

end Json

section Wire

/-- 8-4-4-4-12 hexadecimal digits, as `Uuid` is serialised. -/
def uuidText (id : Uuid) : String :=
  let digits := hexDigits (leBytes 16 id).reverse
  String.ofList (digits.take 8 ++ ['-'] ++ (digits.drop 8).take 4 ++ ['-'] ++ (digits.drop 12).take 4 ++ ['-'] ++
    (digits.drop 16).take 4 ++ ['-'] ++ digits.drop 20)

def rotationEvent (groupId : Uuid) (newVersion : Int) (leader : RotationLeader) : List (String × Json) :=
  [("type", .string "group_key_rotation_requested"),
    ("conversation_id", .string (uuidText groupId)),
    ("key_version", .number newVersion),
    ("leader_user_id", .string (uuidText leader.leader)),
    ("fallback_order", .array (leader.fallbackOrder.map fun id => .string (uuidText id))),
    ("deadline_ms", .number defaultRotationDeadlineMs)]

namespace Wire

structure RotationRequest where
  conversationId : String
  keyVersion : Int
  leaderUserId : Option String
  fallbackOrder : List String
  deadlineMs : Int
  deriving DecidableEq

def parseRotationRequested (json : List (String × Json)) : Except CastError (Option RotationRequest) := do
  let conversationId ← Json.asString (json.lookup "conversation_id")
  let keyVersion ← Json.asNumber (json.lookup "key_version")
  match conversationId, keyVersion with
  | some conversationId, some keyVersion =>
    if conversationId = "" then return none
    else
      let leaderUserId ← Json.asString (json.lookup "leader_user_id")
      let fallbackOrder := match json.lookup "fallback_order" with
        | some (.array items) => items.filterMap Json.text?
        | _ => []
      let rawDeadline ← Json.asNumber (json.lookup "deadline_ms")
      let deadlineMs := (rawDeadline.filter fun ms => 0 < ms).getD clientRotationDeadlineMs
      return some ⟨conversationId, keyVersion, leaderUserId, fallbackOrder, deadlineMs⟩
  | _, _ => return none

def rotationAttemptDelay (leaderUserId : Option String) (fallbackOrder : List String) (deadlineMs : Int)
    (myUserId : String) : Option Int :=
  match leaderUserId.filter fun leader => leader ≠ "" with
  | none => some 0
  | some leader =>
    if myUserId = leader then some 0
    else (fallbackOrder.idxOf? myUserId).map fun position : Nat => deadlineMs * ((position : Int) + 1)

def RotationRequest.delay (request : RotationRequest) (myUserId : String) : Option Int :=
  rotationAttemptDelay request.leaderUserId request.fallbackOrder request.deadlineMs myUserId

end Wire
end Wire

section Ids

theorem leBytes_injective {width m n : Nat} (small : m < 256 ^ width) (small' : n < 256 ^ width)
    (same : leBytes width m = leBytes width n) : m = n := by
  have values := congrArg leValue same
  rwa [leValue_leBytes, leValue_leBytes, Nat.mod_eq_of_lt small, Nat.mod_eq_of_lt small'] at values

theorem pieces_append (digits : List Char) :
    digits.take 8 ++ ((digits.drop 8).take 4 ++
        ((digits.drop 12).take 4 ++ ((digits.drop 16).take 4 ++ digits.drop 20))) =
      digits := by
  have fourth := List.take_append_drop 4 (digits.drop 16)
  have third := List.take_append_drop 4 (digits.drop 12)
  have second := List.take_append_drop 4 (digits.drop 8)
  rw [List.drop_drop] at fourth third second
  rw [fourth, third, second, List.take_append_drop]

theorem uuidText_toList (id : Uuid) :
    let digits := hexDigits (leBytes 16 id).reverse
    (uuidText id).toList = digits.take 8 ++ ('-' :: ((digits.drop 8).take 4 ++ ('-' :: ((digits.drop 12).take 4 ++
      ('-' :: ((digits.drop 16).take 4 ++ ('-' :: digits.drop 20))))))) := by
  simp [uuidText]

theorem hexDigits_uuid_length (id : Uuid) : (hexDigits (leBytes 16 id).reverse).length = 32 := by
  rw [hexDigits_length, List.length_reverse, leBytes_length]

theorem hyphens_injective {digits digits' : List Char} (same : digits.length = digits'.length)
    (chars : digits.take 8 ++ ('-' :: ((digits.drop 8).take 4 ++ ('-' :: ((digits.drop 12).take 4 ++
      ('-' :: ((digits.drop 16).take 4 ++ ('-' :: digits.drop 20))))))) =
        digits'.take 8 ++ ('-' :: ((digits'.drop 8).take 4 ++ ('-' :: ((digits'.drop 12).take 4 ++
          ('-' :: ((digits'.drop 16).take 4 ++ ('-' :: digits'.drop 20)))))))) : digits = digits' := by
  obtain ⟨first, chars⟩ := List.append_inj chars (by simp [same])
  obtain ⟨second, chars⟩ := List.append_inj (List.cons.inj chars).2 (by simp [same])
  obtain ⟨third, chars⟩ := List.append_inj (List.cons.inj chars).2 (by simp [same])
  obtain ⟨fourth, chars⟩ := List.append_inj (List.cons.inj chars).2 (by simp [same])
  rw [← pieces_append digits, ← pieces_append digits', first, second, third, fourth, (List.cons.inj chars).2]

theorem uuidText_injective {id other : Uuid} (small : id < 2 ^ 128) (small' : other < 2 ^ 128)
    (same : uuidText id = uuidText other) : id = other := by
  have chars := congrArg String.toList same
  rw [uuidText_toList, uuidText_toList] at chars
  have length := (hexDigits_uuid_length id).trans (hexDigits_uuid_length other).symm
  have bytes := List.reverse_injective (hexDigits_injective (hyphens_injective length chars))
  exact leBytes_injective (by simpa using small) (by simpa using small') bytes

theorem uuidText_ne_empty (id : Uuid) : uuidText id ≠ "" := by
  intro empty
  have chars := congrArg (fun text => text.toList.length) empty
  simp [uuidText_toList] at chars

end Ids

section Slots

theorem rotationAttemptDelay_at {leader u : String} {fallbackOrder : List String} {i : Nat}
    (led : leader ≠ "") (distinct : (leader :: fallbackOrder).Nodup) (slot : (leader :: fallbackOrder)[i]? = some u)
    (deadlineMs : Int) :
    Wire.rotationAttemptDelay (some leader) fallbackOrder deadlineMs u = some (deadlineMs * i) := by
  have named : (some leader).filter (fun leader => leader ≠ "") = some leader := by simp [led]
  rw [Wire.rotationAttemptDelay, named]
  cases i with
  | zero =>
    cases slot
    simp
  | succ position =>
    simp only [List.getElem?_cons_succ] at slot
    obtain ⟨bound, here⟩ := List.getElem?_eq_some_iff.mp slot
    have apart : u ≠ leader := fun same =>
      (List.nodup_cons.mp distinct).1 (same ▸ List.mem_of_getElem? slot)
    have found : fallbackOrder.idxOf? u = some position := by
      refine List.idxOf?_eq_some_iff.mpr ⟨bound, here, fun j earlier same => ?_⟩
      have places := (List.nodup_cons.mp distinct).2.getElem_inj_iff.mp (same.trans here.symm)
      omega
    simp only [if_neg apart, found, Option.map_some]
    rfl

theorem rotationAttemptDelay_outside {leader u : String} {fallbackOrder : List String} (led : leader ≠ "")
    (outside : u ∉ leader :: fallbackOrder) (deadlineMs : Int) :
    Wire.rotationAttemptDelay (some leader) fallbackOrder deadlineMs u = none := by
  have named : (some leader).filter (fun leader => leader ≠ "") = some leader := by simp [led]
  obtain ⟨apart, absent⟩ := not_or.mp (List.mem_cons.not.mp outside)
  rw [Wire.rotationAttemptDelay, named]
  simp only [if_neg apart, List.idxOf?_eq_none_iff.mpr absent, Option.map_none]

theorem parse_rotationEvent (groupId : Uuid) (newVersion : Int) (leader : RotationLeader) :
    Wire.parseRotationRequested (rotationEvent groupId newVersion leader) =
      .ok (some ⟨uuidText groupId, newVersion, some (uuidText leader.leader), leader.fallbackOrder.map uuidText,
        defaultRotationDeadlineMs⟩) := by
  have texts : (leader.fallbackOrder.map fun id => Json.string (uuidText id)).filterMap Json.text? =
      leader.fallbackOrder.map uuidText := by
    rw [List.filterMap_map, ← List.filterMap_eq_map]
    rfl
  have named : uuidText groupId ≠ "" := uuidText_ne_empty groupId
  have conversation : (rotationEvent groupId newVersion leader).lookup "conversation_id" =
      some (.string (uuidText groupId)) := rfl
  have version : (rotationEvent groupId newVersion leader).lookup "key_version" = some (.number newVersion) := rfl
  have led : (rotationEvent groupId newVersion leader).lookup "leader_user_id" =
      some (.string (uuidText leader.leader)) := rfl
  have fallback : (rotationEvent groupId newVersion leader).lookup "fallback_order" =
      some (.array (leader.fallbackOrder.map fun id => .string (uuidText id))) := rfl
  have deadline : (rotationEvent groupId newVersion leader).lookup "deadline_ms" =
      some (.number defaultRotationDeadlineMs) := rfl
  rw [Wire.parseRotationRequested, conversation, version, led, fallback, deadline]
  simp only [Json.asString, Json.asNumber, bind, Except.bind, if_neg named, texts]
  rfl

def RotationLeader.order (elected : RotationLeader) : List Uuid := elected.leader :: elected.fallbackOrder

theorem elected_order {online : List Uuid} {elected : RotationLeader}
    (found : electRotationLeader online = some elected) :
    elected.order = (online.insertionSort (· ≤ ·)).dedup := by
  unfold electRotationLeader at found
  split at found
  · cases found
  · rename_i leader fallback sorted
    cases found
    exact sorted.symm

theorem elected_sorted {online : List Uuid} {elected : RotationLeader}
    (found : electRotationLeader online = some elected) :
    elected.order.Pairwise (· < ·) := by
  have ascending : elected.order.Pairwise (· ≤ ·) := by
    rw [elected_order found]
    exact (List.pairwise_insertionSort (· ≤ ·) online).sublist (List.dedup_sublist _)
  have distinct : elected.order.Nodup := (elected_perm found).1
  exact (ascending.and distinct).imp fun pair => lt_of_le_of_ne pair.1 pair.2

theorem electRotationLeader_congr {online online' : List Uuid} (same : ∀ u, u ∈ online ↔ u ∈ online') :
    electRotationLeader online = electRotationLeader online' := by
  have sorted : (online.insertionSort (· ≤ ·)).dedup = (online'.insertionSort (· ≤ ·)).dedup := by
    have perm : (online.insertionSort (· ≤ ·)).dedup.Perm (online'.insertionSort (· ≤ ·)).dedup := by
      rw [List.perm_ext_iff_of_nodup (List.nodup_dedup _) (List.nodup_dedup _)]
      simp only [List.mem_dedup, List.mem_insertionSort, same, implies_true]
    refine perm.eq_of_pairwise (fun _ _ _ _ => le_antisymm) ?_ ?_
    · exact (List.pairwise_insertionSort (· ≤ ·) online).sublist (List.dedup_sublist _)
    · exact (List.pairwise_insertionSort (· ≤ ·) online').sublist (List.dedup_sublist _)
  simp only [electRotationLeader, sorted]

theorem electRotationLeader_none {online : List Uuid} : electRotationLeader online = none ↔ online = [] := by
  constructor
  · intro missing
    refine List.eq_nil_iff_forall_not_mem.mpr fun u inside => ?_
    obtain ⟨elected, found⟩ := elected_some inside
    rw [missing] at found
    cases found
  · rintro rfl
    rfl

abbrev UserId := Fin (2 ^ 128)

variable {online : List UserId} {elected : RotationLeader}

theorem order_small (found : electRotationLeader (online.map Fin.val) = some elected) {u : Uuid}
    (inside : u ∈ elected.order) : u < 2 ^ 128 := by
  obtain ⟨id, -, rfl⟩ := List.mem_map.mp (((elected_perm found).2 u).mp inside)
  exact id.isLt

theorem order_texts (found : electRotationLeader (online.map Fin.val) = some elected) :
    (elected.order.map uuidText).Nodup := by
  have distinct : elected.order.Nodup := (elected_perm found).1
  refine distinct.map_on fun u inside v inside' same => ?_
  exact uuidText_injective (order_small found inside) (order_small found inside') same

theorem delay_of_order (found : electRotationLeader (online.map Fin.val) = some elected) (groupId : Uuid)
    (newVersion : Int) {i : Nat} {u : Uuid} (slot : elected.order[i]? = some u) :
    Wire.RotationRequest.delay ⟨uuidText groupId, newVersion, some (uuidText elected.leader),
      elected.fallbackOrder.map uuidText, defaultRotationDeadlineMs⟩ (uuidText u) =
        some ((defaultRotationDeadlineMs : Int) * i) := by
  have text : (elected.order.map uuidText)[i]? = some (uuidText u) := by rw [List.getElem?_map, slot, Option.map_some]
  exact rotationAttemptDelay_at (uuidText_ne_empty _) (order_texts found) text _

/-- Whatever the list of those online, each of them has one slot of its own in the order of the ids, and no other
client has any. -/
theorem rotation_slots (online : List UserId) :
    (∀ online' : List UserId, (∀ u, u ∈ online' ↔ u ∈ online) →
      electRotationLeader (online'.map Fin.val) = electRotationLeader (online.map Fin.val)) ∧
    (electRotationLeader (online.map Fin.val) = none ↔ online = []) ∧
    ∀ elected, electRotationLeader (online.map Fin.val) = some elected →
      elected.order.Nodup ∧ (∀ u, u ∈ elected.order ↔ u ∈ online.map Fin.val) ∧ elected.order.Pairwise (· < ·) ∧
      ∀ (groupId : Uuid) (newVersion : Int), ∃ request : Wire.RotationRequest,
        Wire.parseRotationRequested (rotationEvent groupId newVersion elected) = .ok (some request) ∧
        0 < request.deadlineMs ∧ request.delay (uuidText elected.leader) = some 0 ∧
        (∀ (i j : Nat) (u v : Uuid), elected.order[i]? = some u → elected.order[j]? = some v → i < j →
          ∃ first second, request.delay (uuidText u) = some first ∧ request.delay (uuidText v) = some second ∧
            first + request.deadlineMs ≤ second) ∧
        ∀ me, (∀ u ∈ elected.order, me ≠ uuidText u) → request.delay me = none := by
  refine ⟨?_, ?_, ?_⟩
  · intro online' same
    refine electRotationLeader_congr fun u => ?_
    simp only [List.mem_map, same]
  · rw [electRotationLeader_none, List.map_eq_nil_iff]
  · intro elected found
    refine ⟨(elected_perm found).1, (elected_perm found).2, elected_sorted found, fun groupId newVersion => ?_⟩
    have positive : (0 : Int) < defaultRotationDeadlineMs := by decide
    refine ⟨_, parse_rotationEvent groupId newVersion elected, positive, ?_, ?_, ?_⟩
    · exact (delay_of_order found groupId newVersion (i := 0) rfl).trans (congrArg some (Int.mul_zero _))
    · intro i j u v slot slot' before
      refine ⟨_, _, delay_of_order found groupId newVersion slot, delay_of_order found groupId newVersion slot', ?_⟩
      have step : defaultRotationDeadlineMs * i + defaultRotationDeadlineMs ≤ defaultRotationDeadlineMs * j :=
        Nat.mul_le_mul_left _ before
      have step' : (defaultRotationDeadlineMs : Int) * i + defaultRotationDeadlineMs ≤ defaultRotationDeadlineMs *
          j := by
        exact_mod_cast step
      exact step'
    · intro me outside
      refine rotationAttemptDelay_outside (uuidText_ne_empty _) ?_ _
      intro inside
      have named : me ∈ elected.order.map uuidText := inside
      obtain ⟨u, there, rfl⟩ := List.mem_map.mp named
      exact outside u there rfl

end Slots
end Echo.Groups
