import Echo.Lib.Newest
import Echo.Timeline.Cache
import Echo.Timeline.Stamps

/-! Which messages a box of the cache keeps when it is full. -/
namespace Echo.Timeline
open Echo.Lib (Along cutOff newest)

section Keys

theorem codeUnits_injective {a b : String} (same : codeUnits a = codeUnits b) : a = b := by
  -- a unit of a pair is in a range that no character has
  have range : ∀ c : Char, c.toNat < 0xD800 ∨ 0xDFFF < c.toNat ∧ c.toNat < 0x110000 := fun c => c.valid
  suffices texts : ∀ s t : List Char,
      (s.flatMap fun c => if c.toNat < 0x10000 then [c.toNat]
        else [0xD800 + (c.toNat - 0x10000) / 0x400, 0xDC00 + (c.toNat - 0x10000) % 0x400]) =
      (t.flatMap fun c => if c.toNat < 0x10000 then [c.toNat]
        else [0xD800 + (c.toNat - 0x10000) / 0x400, 0xDC00 + (c.toNat - 0x10000) % 0x400]) → s = t from
    String.toList_inj.mp (texts a.toList b.toList same)
  intro s
  induction s with
  | nil =>
    intro t same
    cases t with
    | nil => rfl
    | cons d t =>
      rw [List.flatMap_cons] at same
      split at same <;> cases same
  | cons c s ih =>
    intro t same
    cases t with
    | nil =>
      rw [List.flatMap_cons] at same
      split at same <;> cases same
    | cons d t =>
      rw [List.flatMap_cons, List.flatMap_cons] at same
      have left := range c
      have right := range d
      by_cases plain : c.toNat < 0x10000 <;> by_cases plain' : d.toNat < 0x10000
      · rw [if_pos plain, if_pos plain'] at same
        obtain ⟨first, rest⟩ := List.cons.inj same
        rw [Char.toNat_inj.mp first, ih t rest]
      · rw [if_pos plain, if_neg plain'] at same
        have first := (List.cons.inj same).1
        omega
      · rw [if_neg plain, if_pos plain'] at same
        have first := (List.cons.inj same).1
        omega
      · rw [if_neg plain, if_neg plain'] at same
        obtain ⟨first, rest⟩ := List.cons.inj same
        obtain ⟨second, rest⟩ := List.cons.inj rest
        have both : c.toNat = d.toNat := by omega
        rw [Char.toNat_inj.mp both, ih t rest]

def keyOrder (held : List String) : List String := held.mergeSort fun a b => codeUnits a ≤ codeUnits b

theorem keyOrder_perm (held : List String) : (keyOrder held).Perm held := List.mergeSort_perm held _

theorem keyOrder_length (box : List ChatMessage) : (keyOrder (ids box)).length = box.length := by
  rw [(keyOrder_perm _).length_eq, List.length_map]

def ascending : Hive := ⟨keyOrder, keyOrder_perm⟩

theorem keyOrder_sorted (held : List String) : (keyOrder held).Pairwise fun a b => codeUnits a ≤ codeUnits b := by
  refine (List.pairwise_mergeSort ?_ ?_ held).imp of_decide_eq_true
  · exact fun a b c first second => decide_eq_true ((of_decide_eq_true first).trans (of_decide_eq_true second))
  · intro a b
    simpa using le_total (codeUnits a) (codeUnits b)

end Keys

section Eviction

/-- So many keys of the box are behind this one that there is no room for it. -/
def Outranked (box : List ChatMessage) (id : String) : Prop :=
  maxPerConv ≤ (ids box).countP fun key => codeUnits id < codeUnits key

instance (box : List ChatMessage) (id : String) : Decidable (Outranked box id) := inferInstanceAs (Decidable (_ ≤ _))

theorem mem_newest_iff (box : List ChatMessage) {id : String} (held : id ∈ ids box) :
    id ∈ newest maxPerConv (keyOrder (ids box)) ↔ ¬ Outranked box id := by
  have perm := keyOrder_perm (ids box)
  have sorted := keyOrder_sorted (ids box)
  rw [Outranked, not_le, ← perm.countP_eq]
  constructor
  · intro kept
    refine (List.countP_congr fun key _ => ?_).trans_lt (Echo.Lib.countP_lt_of_kept sorted kept)
    simp only [decide_eq_true_eq]
  · intro few
    obtain ⟨key, kept, same⟩ := Echo.Lib.exists_kept codeUnits sorted (perm.mem_iff.mpr held) (by
      refine (List.countP_congr fun key _ => ?_).trans_lt few
      simp only [decide_eq_true_eq])
    rwa [← codeUnits_injective same]

theorem evict_eq (box : List ChatMessage) :
    evict ascending box = box.filter fun m => m.id ∉ cutOff maxPerConv (keyOrder (ids box)) := by
  unfold evict
  split
  case isTrue =>
    rw [cutOff, keyOrder_length]
    rfl
  case isFalse small =>
    rw [Echo.Lib.cutOff_eq_nil (by rw [keyOrder_length]; omega)]
    simp

theorem keyOrder_split (box : List ChatMessage) (distinct : (ids box).Nodup) :
    (keyOrder (ids box)).filter (· ∉ cutOff maxPerConv (keyOrder (ids box))) =
      newest maxPerConv (keyOrder (ids box)) := by
  have nodup : (cutOff maxPerConv (keyOrder (ids box)) ++ newest maxPerConv (keyOrder (ids box))).Nodup := by
    rw [Echo.Lib.cutOff_append_newest]
    exact (keyOrder_perm (ids box)).nodup_iff.mpr distinct
  obtain ⟨-, -, apart⟩ := List.nodup_append.mp nodup
  conv_lhs => rw [← Echo.Lib.cutOff_append_newest maxPerConv (keyOrder (ids box))]
  rw [List.filter_append]
  have gone : ∀ id ∈ cutOff maxPerConv (keyOrder (ids box)),
      ¬ decide (id ∉ cutOff maxPerConv (keyOrder (ids box))) = true := by simp
  have kept : ∀ id ∈ newest maxPerConv (keyOrder (ids box)),
      decide (id ∉ cutOff maxPerConv (keyOrder (ids box))) = true :=
    fun id mem => decide_eq_true fun cut => apart id cut id mem rfl
  rw [Echo.Lib.cutOff_append_newest, List.filter_eq_nil_iff.mpr gone, List.filter_eq_self.mpr kept, List.nil_append]

variable {box : List ChatMessage}

theorem mem_evict (distinct : (ids box).Nodup) {m : ChatMessage} :
    m ∈ evict ascending box ↔ m ∈ box ∧ ¬ Outranked box m.id := by
  rw [evict_eq, List.mem_filter]
  refine and_congr_right fun mem => ?_
  have held : m.id ∈ ids box := List.mem_map_of_mem mem
  rw [← mem_newest_iff box held, ← keyOrder_split box distinct, List.mem_filter]
  exact (and_iff_right ((keyOrder_perm (ids box)).mem_iff.mpr held)).symm

theorem length_evict (distinct : (ids box).Nodup) : (evict ascending box).length = min maxPerConv box.length := by
  have perm := (keyOrder_perm (ids box)).filter fun key => key ∉ cutOff maxPerConv (keyOrder (ids box))
  have counted := perm.length_eq
  rw [keyOrder_split box distinct, Echo.Lib.length_newest, keyOrder_length, List.filter_map, List.length_map,
    Function.comp_def] at counted
  rw [evict_eq, min_comm]
  exact counted.symm

end Eviction

section Puts
variable {box entries : List ChatMessage} {m : ChatMessage}

theorem mem_put {msg : ChatMessage} : m ∈ put box msg ↔ m = msg ∨ m ∈ box ∧ m.id ≠ msg.id := by
  unfold put
  split
  case isTrue held =>
    rw [List.mem_map]
    constructor
    · rintro ⟨old, mem, rfl⟩
      by_cases same : old.id = msg.id
      · exact .inl (if_pos same)
      · rw [if_neg same]
        exact .inr ⟨mem, same⟩
    · rintro (rfl | ⟨mem, other⟩)
      · obtain ⟨old, mem, same⟩ := List.mem_map.mp held
        exact ⟨old, mem, if_pos same⟩
      · exact ⟨m, mem, if_neg other⟩
  case isFalse fresh =>
    rw [List.mem_append, List.mem_singleton, or_comm]
    refine or_congr_right ⟨fun mem => ⟨mem, fun same => fresh ?_⟩, And.left⟩
    exact List.mem_map.mpr ⟨m, mem, same⟩

theorem nodup_put (msg : ChatMessage) (distinct : (ids box).Nodup) : (ids (put box msg)).Nodup := by
  unfold put
  split
  case isTrue =>
    have same : ids (box.map fun m => if m.id = msg.id then msg else m) = ids box := by
      rw [ids, List.map_map]
      refine List.map_congr_left fun m _ => ?_
      by_cases here : m.id = msg.id
      · simp [here]
      · simp [here]
    rwa [same]
  case isFalse fresh =>
    rw [ids, List.map_append]
    refine distinct.append (List.nodup_singleton _) (List.disjoint_singleton.mpr fresh)

theorem nodup_putAll (entries : List ChatMessage) (distinct : (ids box).Nodup) : (ids (putAll box entries)).Nodup := by
  induction entries generalizing box with
  | nil => exact distinct
  | cons msg entries ih => exact ih (nodup_put msg distinct)

theorem mem_putAll : m ∈ putAll box entries ↔ m ∈ putAll [] entries ∨ m ∈ box ∧ m.id ∉ ids entries := by
  induction entries generalizing box with
  | nil => simp [putAll]
  | cons msg entries ih =>
    change m ∈ putAll (put box msg) entries ↔ m ∈ putAll (put [] msg) entries ∨ _
    rw [ih, @ih (put [] msg), mem_put, mem_put, or_assoc]
    refine or_congr_right ?_
    simp only [ids, List.map_cons, List.mem_cons, List.not_mem_nil, false_and, or_false, not_or]
    tauto

theorem putAll_subset {all : List ChatMessage} (cached : box ⊆ all) : putAll box entries ⊆ putAll all entries := by
  intro m mem
  rcases mem_putAll.mp mem with put | ⟨held, other⟩
  · exact mem_putAll.mpr (.inl put)
  · exact mem_putAll.mpr (.inr ⟨cached held, other⟩)

theorem mem_ids_putAll {id : String} : id ∈ ids (putAll box entries) ↔ id ∈ ids box ∨ id ∈ ids entries := by
  constructor
  · exact ids_putAll
  · induction entries generalizing box with
    | nil => exact fun held => held.resolve_right List.not_mem_nil
    | cons msg entries ih =>
      intro held
      refine ih ?_
      by_cases here : id = msg.id
      · exact .inl (List.mem_map.mpr ⟨msg, mem_put.mpr (.inl rfl), here.symm⟩)
      · rcases held with held | held
        · obtain ⟨m, mem, rfl⟩ := List.mem_map.mp held
          exact .inl (List.mem_map_of_mem (mem_put.mpr (.inr ⟨mem, here⟩)))
        · exact .inr ((List.mem_cons.mp held).resolve_left here)

theorem putAll_nil_subset : putAll [] entries ⊆ entries := by
  intro m mem
  induction entries with
  | nil => exact mem
  | cons msg entries ih =>
    rcases mem_putAll.mp (show m ∈ putAll (put [] msg) entries from mem) with put | ⟨held, -⟩
    · exact List.mem_cons_of_mem msg (ih put)
    · rcases mem_put.mp held with rfl | ⟨none, -⟩
      · exact List.mem_cons_self
      · cases none

variable (entries) in
theorem length_le_putAll (distinct : (ids box).Nodup) : box.length ≤ (putAll box entries).length := by
  have subset : ids box ⊆ ids (putAll box entries) := fun id mem => mem_ids_putAll.mpr (.inl mem)
  simpa using (List.subperm_of_subset distinct subset).length_le

theorem eq_of_id {a b : ChatMessage} (distinct : (ids box).Nodup) (left : a ∈ box) (right : b ∈ box)
    (same : a.id = b.id) : a = b := List.inj_on_of_nodup_map distinct left right same

end Puts

/-- `MessageCache.cacheMessages` on an open box. -/
def cacheMessages (hive : Hive) (box messages : List ChatMessage) : List ChatMessage :=
  let entries := messages.filter isCacheable
  if entries.isEmpty then box else evict hive (putAll box entries)

/-- The box of a conversation, and every message that was ever cached there, as it was cached last. -/
structure Cached where
  box : List ChatMessage := []
  all : List ChatMessage := []

namespace Cached
variable {κ : Type} [LinearOrder κ] (time : String → κ)

def cacheMessages (c : Cached) (messages : List ChatMessage) : Cached where
  box := Timeline.cacheMessages ascending c.box messages
  all := putAll c.all (messages.filter isCacheable)

/-- The box holds as many of the messages as it can, and none that is older than one it does not hold. -/
structure Newest (c : Cached) : Prop where
  distinct : (ids c.box).Nodup
  once : (ids c.all).Nodup
  cached : c.box ⊆ c.all
  size : c.box.length = min maxPerConv c.all.length
  spared : ∀ a ∈ c.all, a.id ∉ ids c.box → ∀ b ∈ c.box, time a.timestamp ≤ time b.timestamp

/-- The keys say which messages are the oldest; and what comes in and stays is not older than what was evicted
before. -/
structure Fair (c : Cached) (messages : List ChatMessage) : Prop where
  keyed : ∀ a ∈ putAll c.box (messages.filter isCacheable), ∀ b ∈ putAll c.box (messages.filter isCacheable),
    Outranked (putAll c.box (messages.filter isCacheable)) a.id →
      ¬ Outranked (putAll c.box (messages.filter isCacheable)) b.id → time a.timestamp ≤ time b.timestamp
  recent : ∀ a ∈ c.all, a.id ∉ ids (putAll c.box (messages.filter isCacheable)) →
    ∀ b ∈ putAll c.box (messages.filter isCacheable), b ∉ c.box →
      ¬ Outranked (putAll c.box (messages.filter isCacheable)) b.id → time a.timestamp ≤ time b.timestamp

variable {time} {c : Cached}

theorem cacheMessages_box (small : c.box.length ≤ maxPerConv) (messages : List ChatMessage) :
    (c.cacheMessages messages).box = evict ascending (putAll c.box (messages.filter isCacheable)) := by
  change Timeline.cacheMessages ascending c.box messages = _
  unfold Timeline.cacheMessages
  dsimp only
  split
  case isTrue none =>
    rw [List.isEmpty_iff.mp none]
    exact (if_neg (Nat.not_lt.mpr small)).symm
  case isFalse => rfl

theorem length_putAll (newest : c.Newest time) (entries : List ChatMessage) :
    min maxPerConv (putAll c.box entries).length = min maxPerConv (putAll c.all entries).length := by
  have distinct := nodup_putAll entries newest.distinct
  have once := nodup_putAll entries newest.once
  have size := newest.size
  by_cases room : c.all.length ≤ maxPerConv
  · -- nothing was evicted so far
    have whole : (ids c.box).Perm (ids c.all) := by
      have subperm := List.subperm_of_subset newest.distinct (List.map_subset _ newest.cached)
      refine subperm.perm_of_length_le ?_
      rw [List.length_map, List.length_map]
      omega
    have same : (ids (putAll c.box entries)).Perm (ids (putAll c.all entries)) := by
      refine (List.perm_ext_iff_of_nodup distinct once).mpr fun id => ?_
      rw [mem_ids_putAll, mem_ids_putAll, whole.mem_iff]
    rw [← List.length_map ChatMessage.id, same.length_eq, List.length_map]
  · have left := length_le_putAll entries newest.distinct
    have right := length_le_putAll entries newest.once
    omega

theorem newest_cacheMessages_iff (newest : c.Newest time) (messages : List ChatMessage) :
    (c.cacheMessages messages).Newest time ↔ c.Fair time messages := by
  have small : c.box.length ≤ maxPerConv := newest.size.trans_le (Nat.min_le_left _ _)
  have distinct := nodup_putAll (messages.filter isCacheable) newest.distinct
  have once : (ids (c.cacheMessages messages).all).Nodup :=
    nodup_putAll (messages.filter isCacheable) newest.once
  have box := cacheMessages_box small messages
  have subset : putAll c.box (messages.filter isCacheable) ⊆ (c.cacheMessages messages).all :=
    putAll_subset newest.cached
  have gone : ∀ a ∈ putAll c.box (messages.filter isCacheable),
      Outranked (putAll c.box (messages.filter isCacheable)) a.id → a.id ∉ ids (c.cacheMessages messages).box := by
    intro a mem outranked held
    obtain ⟨m, kept, same⟩ := List.mem_map.mp held
    rw [box, mem_evict distinct, same] at kept
    exact kept.2 outranked
  constructor
  · intro after
    constructor
    · intro a left b right outranked stays
      refine after.spared a (subset left) (gone a left outranked) b ?_
      rw [box, mem_evict distinct]
      exact ⟨right, stays⟩
    · intro a left before b right _ stays
      refine after.spared a ?_ ?_ b ?_
      · exact mem_putAll.mpr (.inr ⟨left, fun put => before (mem_ids_putAll.mpr (.inr put))⟩)
      · rw [box]
        exact fun held => before (ids_evict held)
      · rw [box, mem_evict distinct]
        exact ⟨right, stays⟩
  · intro fair
    refine ⟨?_, once, ?_, ?_, ?_⟩
    · rw [box, evict_eq]
      exact distinct.sublist (List.filter_sublist.map _)
    · rw [box]
      exact fun m kept => subset ((mem_evict distinct).mp kept).1
    · rw [box, length_evict distinct]
      exact length_putAll newest _
    · intro a left absent b kept
      rw [box, mem_evict distinct] at kept
      obtain ⟨right, stays⟩ := kept
      by_cases held : a.id ∈ ids (putAll c.box (messages.filter isCacheable))
      · -- evicted now
        obtain ⟨a', mem, same⟩ := List.mem_map.mp held
        obtain rfl : a' = a := eq_of_id once (subset mem) left same
        refine fair.keyed a' mem b right ?_ stays
        by_contra stays'
        refine absent (List.mem_map.mpr ⟨a', ?_, rfl⟩)
        rw [box, mem_evict distinct]
        exact ⟨mem, stays'⟩
      · -- evicted before
        have other : a.id ∉ ids (messages.filter isCacheable) := fun put => held (mem_ids_putAll.mpr (.inr put))
        have before : a ∈ c.all := by
          rcases mem_putAll.mp left with put | ⟨mem, -⟩
          · exact absurd (ids_putAll (List.mem_map_of_mem put)) (fun now => other (now.resolve_left List.not_mem_nil))
          · exact mem
        by_cases old : b ∈ c.box
        · exact newest.spared a before (fun inside => held (mem_ids_putAll.mpr (.inl inside))) b old
        · exact fair.recent a before held b right old stays

/-- The box keeps the newest messages as long as the order of the keys does not put a newer message first. -/
theorem newest_kept_iff (time : String → κ) (calls : List (List ChatMessage)) :
    Along cacheMessages (fun c messages => (c.cacheMessages messages).Newest time) {} calls ↔
      Along cacheMessages (Fair time) {} calls := by
  refine Along.invariant_iff (I := Newest time) (fun c messages newest => newest_cacheMessages_iff newest messages) ?_
  exact ⟨List.nodup_nil, List.nodup_nil, List.nil_subset _, rfl, fun _ mem => absurd mem List.not_mem_nil⟩

section Newcomer

theorem filled_box {older : List ChatMessage} (full : older.length = maxPerConv) (distinct : (ids older).Nodup)
    (kept : ∀ m ∈ older, isCacheable m = true) :
    (cacheMessages {} older).box = putAll [] older ∧ (putAll [] older).length = maxPerConv := by
  have nodup : (ids (putAll [] older)).Nodup := nodup_putAll older List.nodup_nil
  have held : (ids (putAll [] older)).Perm (ids older) := by
    refine (List.perm_ext_iff_of_nodup nodup distinct).mpr fun id => ?_
    rw [mem_ids_putAll]
    exact or_iff_right List.not_mem_nil
  have size : (putAll [] older).length = maxPerConv := by
    rw [← full, ← List.length_map ChatMessage.id, held.length_eq, List.length_map]
  refine ⟨?_, size⟩
  rw [cacheMessages_box (Nat.zero_le _), List.filter_eq_self.mpr kept]
  exact if_neg (Nat.not_lt.mpr size.le)

theorem evicted_of_full {older : List ChatMessage} {newcomer : ChatMessage} (full : older.length = maxPerConv)
    (distinct : (ids older).Nodup) (kept : ∀ m ∈ older, isCacheable m = true) (passed : isCacheable newcomer = true)
    (first : ∀ m ∈ older, codeUnits newcomer.id < codeUnits m.id)
    (newer : ∀ m ∈ older, time m.timestamp < time newcomer.timestamp) :
    ¬ Along cacheMessages (fun c messages => (c.cacheMessages messages).Newest time) {} [older, [newcomer]] := by
  rintro ⟨-, after, -⟩
  obtain ⟨box, size⟩ := filled_box full distinct kept
  have entry : [newcomer].filter isCacheable = [newcomer] :=
    List.filter_eq_self.mpr (List.forall_mem_singleton.mpr passed)
  have nodup : (ids (putAll [] older)).Nodup := nodup_putAll older List.nodup_nil
  have nodup' : (ids (putAll (putAll [] older) [newcomer])).Nodup := nodup_putAll _ nodup
  have box' := cacheMessages_box (box ▸ size.le) [newcomer]
  rw [entry, box] at box'
  have outranked : Outranked (putAll (putAll [] older) [newcomer]) newcomer.id := by
    have subperm : (ids older).Subperm (ids (putAll (putAll [] older) [newcomer])) := by
      refine List.subperm_of_subset distinct fun id mem => ?_
      exact mem_ids_putAll.mpr (.inl (mem_ids_putAll.mpr (.inr mem)))
    have counted : (ids older).countP (fun key => codeUnits newcomer.id < codeUnits key) = (ids older).length := by
      refine List.countP_eq_length.mpr fun id mem => ?_
      obtain ⟨m, listed, rfl⟩ := List.mem_map.mp mem
      exact decide_eq_true (first m listed)
    rw [List.length_map, full] at counted
    exact counted.symm.trans_le (subperm.countP_le _)
  have some : 0 < (evict ascending (putAll (putAll [] older) [newcomer])).length := by
    have grown := length_le_putAll [newcomer] nodup
    rw [length_evict nodup']
    unfold maxPerConv at *
    omega
  obtain ⟨b, stays⟩ := List.exists_mem_of_length_pos some
  obtain ⟨mem, spared⟩ := (mem_evict nodup').mp stays
  have absent : newcomer.id ∉ ids (cacheMessages (cacheMessages {} older) [newcomer]).box := by
    rw [box']
    intro held
    obtain ⟨m, listed, same⟩ := List.mem_map.mp held
    exact ((mem_evict nodup').mp listed).2 (same ▸ outranked)
  have listed : newcomer ∈ (cacheMessages (cacheMessages {} older) [newcomer]).all := by
    refine mem_putAll.mpr (.inl ?_)
    rw [entry]
    exact List.mem_singleton_self _
  rcases mem_putAll.mp mem with put | ⟨old, -⟩
  · obtain rfl : b = newcomer := List.mem_singleton.mp (putAll_nil_subset put)
    exact spared outranked
  · exact (newer b (putAll_nil_subset old)).not_ge (after.spared newcomer listed absent b (box' ▸ stays))

def numbered (first : Char) (n : Nat) : String :=
  String.ofList (first :: "0000000-0000-4000-8000-".toList ++ Echo.Lib.padded 12 n)

def earlier (n : Nat) : ChatMessage :=
  { id := numbered 'b' n, fromUserId := "ann", fromUsername := "Ann", conversationId := "c", content := "hello",
    timestamp := "2026-01-01T12:00:00.000Z", isMine := false }

def newcomer : ChatMessage := { earlier 0 with id := numbered 'a' 0, timestamp := "2026-01-01T12:01:00.000Z" }

theorem numbered_units {first : Char} (plain : first.toNat < 0x10000) (n : Nat) :
    codeUnits (numbered first n) =
      Echo.Lib.codes (first :: "0000000-0000-4000-8000-".toList ++ Echo.Lib.padded 12 n) := by
  refine codeUnits_ofList (List.forall_mem_append.mpr ⟨?_, padded_plain 12 n⟩)
  have ascii : "0000000-0000-4000-8000-".toList.all (fun c => decide (c.toNat < 0x10000)) = true := by decide +kernel
  exact List.forall_mem_cons.mpr ⟨plain, fun c mem => of_decide_eq_true (List.all_eq_true.mp ascii c mem)⟩

theorem numbered_lt {v w : Nat} (small : w < 10 ^ 12) (less : v < w) :
    codeUnits (numbered 'b' v) < codeUnits (numbered 'b' w) := by
  rw [numbered_units (by decide), numbered_units (by decide), Echo.Lib.codes_append, Echo.Lib.codes_append]
  exact (Echo.Lib.append_lt_append_iff rfl _ _).mpr (.inr ⟨rfl, Echo.Lib.padded_lt small less⟩)

theorem newcomer_first (n : Nat) : codeUnits newcomer.id < codeUnits (earlier n).id := by
  change codeUnits (numbered 'a' 0) < codeUnits (numbered 'b' n)
  rw [numbered_units (by decide), numbered_units (by decide)]
  exact List.cons_lt_cons_iff.mpr (.inl (by decide))

theorem numbered_confirmed {first : Char} (other : first ≠ 'p') (n : Nat) :
    startsWith (numbered first n) "pending_" = false := by
  have start : "pending_".toList = 'p' :: "ending_".toList := by decide
  have text : (numbered first n).toList = first :: ("0000000-0000-4000-8000-".toList ++ Echo.Lib.padded 12 n) :=
    String.toList_ofList
  rw [startsWith, text, start, List.isPrefixOf_cons_cons, beq_false_of_ne other.symm, Bool.false_and]

theorem innocent : Conversations.failureSentinels.contains "hello" = false := by decide +kernel

theorem earlier_distinct : (ids ((List.range maxPerConv).map earlier)).Nodup := by
  rw [ids, List.map_map, List.nodup_map_iff_inj_on List.nodup_range]
  intro v left w right same
  rw [List.mem_range, maxPerConv] at left right
  have same : numbered 'b' v = numbered 'b' w := same
  rcases Nat.lt_trichotomy v w with less | rfl | more
  · exact absurd (congrArg codeUnits same) (numbered_lt (by omega) less).ne
  · rfl
  · exact absurd (congrArg codeUnits same) (numbered_lt (by omega) more).ne'

/-- A full box, and one more message: it is the one that is evicted. -/
theorem newcomer_evicted :
    ¬ Along cacheMessages (fun c messages => (c.cacheMessages messages).Newest codeUnits) {}
      [(List.range maxPerConv).map earlier, [newcomer]] := by
  refine evicted_of_full ?_ earlier_distinct ?_ ?_ ?_ ?_
  · rw [List.length_map, List.length_range]
  · intro m mem
    obtain ⟨n, -, rfl⟩ := List.mem_map.mp mem
    exact Bool.and_eq_true_iff.mpr ⟨congrArg not (numbered_confirmed (by decide) n), congrArg not innocent⟩
  · exact Bool.and_eq_true_iff.mpr ⟨congrArg not (numbered_confirmed (by decide) 0), congrArg not innocent⟩
  · intro m mem
    obtain ⟨n, -, rfl⟩ := List.mem_map.mp mem
    exact newcomer_first n
  · intro m mem
    obtain ⟨n, -, rfl⟩ := List.mem_map.mp mem
    change codeUnits "2026-01-01T12:00:00.000Z" < codeUnits "2026-01-01T12:01:00.000Z"
    decide +kernel

end Newcomer
end Cached
end Echo.Timeline
