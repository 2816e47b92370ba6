import Echo.Lib.FixedWindow
import Echo.LinkPreview.Targets
import Echo.Server.Validate

/-! The limiter of HTTP requests (`middleware/rate_limit.rs`): a count for each address in a map that is swept now and
then, and the address a request counts against. Instants are nanoseconds since the limiter was made. -/
namespace Echo.Server.RateLimits
open Echo.Lib
open Echo.Lib.FixedWindow
open Echo.LinkPreview (IpAddr Ipv4Addr Ipv6Addr SocketAddr)

section Limiter
variable {IP : Type} [DecidableEq IP]

structure RateBucket where
  count : UInt32
  windowStart : Nat

structure Limits where
  maxRequests : UInt32
  windowSecs : UInt64

structure RateLimiter (IP : Type) where
  entries : IP → Option RateBucket
  lastSweepNanos : UInt64

def RateLimiter.new : RateLimiter IP := ⟨fun _ => none, 0⟩

def sweepIntervalSecs : UInt64 := 60

/-- `duration_since(..).as_secs()`; an earlier instant counts as no time. -/
def secondsSince (now earlier : Nat) : Nat := (now - earlier) / 1000000000

def saturatingSub (a b : UInt64) : UInt64 := if a < b then 0 else a - b

def sweep (limits : Limits) (now : Nat) (limiter : RateLimiter IP) : RateLimiter IP :=
  let nowNanos := UInt64.ofNat now
  let intervalNanos := sweepIntervalSecs * 1000000000
  if intervalNanos ≤ saturatingSub nowNanos limiter.lastSweepNanos then
    let cleanupThreshold := limits.windowSecs * 2
    { entries := fun ip => (limiter.entries ip).filter fun bucket =>
        decide (secondsSince now bucket.windowStart < cleanupThreshold.toNat)
      lastSweepNanos := nowNanos }
  else limiter

/-- What is done with the entry of the address; sums wrap around as in a release build. -/
def visit (limits : Limits) (bucket : Option RateBucket) (now : Nat) : Bool × Option RateBucket :=
  let bucket := bucket.getD ⟨0, now⟩
  let bucket := if limits.windowSecs.toNat ≤ secondsSince now bucket.windowStart then ⟨0, now⟩ else bucket
  let bucket := { bucket with count := bucket.count + 1 }
  (decide (bucket.count ≤ limits.maxRequests), some bucket)

def check (limits : Limits) (limiter : RateLimiter IP) (call : IP × Nat) : Bool × RateLimiter IP :=
  let limiter := sweep limits call.2 limiter
  let (allowed, bucket) := visit limits (limiter.entries call.1) call.2
  (allowed, { limiter with entries := Function.update limiter.entries call.1 bucket })

end Limiter

section Reference
variable {IP : Type} [DecidableEq IP] {limits : Limits} {now last : Nat}

def unswept (limits : Limits) : (IP → Option RateBucket) → IP × Nat → Bool × (IP → Option RateBucket) :=
  keyed Prod.fst fun bucket call => visit limits bucket call.2

def Expired (limits : Limits) (now : Nat) (bucket : RateBucket) : Prop :=
  limits.windowSecs.toNat ≤ secondsSince now bucket.windowStart

theorem Expired.later {bucket : RateBucket} (expired : Expired limits last bucket) (order : last ≤ now) :
    Expired limits now bucket :=
  Nat.le_trans expired (Nat.div_le_div_right (Nat.sub_le_sub_right order _))

/-- The map has what the reference has, or nothing where the reference has what is over. -/
def Swept (limits : Limits) (now : Nat) (limiter : RateLimiter IP) (store : IP → Option RateBucket) : Prop :=
  ∀ ip, limiter.entries ip = store ip ∨
    limiter.entries ip = none ∧ ∃ bucket, store ip = some bucket ∧ Expired limits now bucket

theorem visit_expired {bucket : RateBucket} (expired : Expired limits now bucket) :
    visit limits (some bucket) now = visit limits none now := by
  unfold Expired at expired
  unfold visit
  simp only [Option.getD_some, Option.getD_none, if_pos expired, ite_self]

omit [DecidableEq IP] in
theorem Swept.sweep {limiter : RateLimiter IP} {store : IP → Option RateBucket}
    (half : limits.windowSecs.toNat * 2 < 2 ^ 64)
    (swept : Swept limits last limiter store) (order : last ≤ now) : Swept limits now (sweep limits now limiter)
        store := by
  have doubled : (limits.windowSecs * 2).toNat = limits.windowSecs.toNat * 2 := by
    rw [UInt64.toNat_mul]
    exact Nat.mod_eq_of_lt half
  intro ip
  have kept : limiter.entries ip = store ip ∨
      limiter.entries ip = none ∧ ∃ bucket, store ip = some bucket ∧ Expired limits now bucket := by
    rcases swept ip with same | ⟨gone, bucket, held, expired⟩
    · exact .inl same
    · exact .inr ⟨gone, bucket, held, expired.later order⟩
  unfold RateLimits.sweep
  dsimp only
  split
  · dsimp only
    rcases kept with same | ⟨gone, late⟩
    · cases held : limiter.entries ip with
      | none => exact .inl (held.symm.trans same)
      | some bucket =>
        rw [held] at same
        rw [← same, doubled]
        by_cases young : secondsSince now bucket.windowStart < limits.windowSecs.toNat * 2
        · exact .inl (Option.filter_some_pos (decide_eq_true young))
        · refine .inr ⟨Option.filter_some_neg (by simpa using young), bucket, rfl, ?_⟩
          unfold Expired
          omega
    · rw [gone]
      exact .inr ⟨rfl, late⟩
  · exact kept

theorem check_simulates {limiter : RateLimiter IP} {store : IP → Option RateBucket} {call : IP × Nat}
    (half : limits.windowSecs.toNat * 2 < 2 ^ 64) (swept : Swept limits last limiter store) (order : last ≤ call.2) :
    (check limits limiter call).1 = (unswept limits store call).1 ∧
      Swept limits call.2 (check limits limiter call).2 (unswept limits store call).2 := by
  have now := swept.sweep half order
  have same : visit limits ((sweep limits call.2 limiter).entries call.1) call.2 = visit limits (store call.1)
      call.2 := by
    rcases now call.1 with same | ⟨gone, bucket, held, expired⟩
    · rw [same]
    · rw [gone, held, visit_expired expired]
  refine ⟨congrArg Prod.fst same, fun ip => ?_⟩
  by_cases here : ip = call.1
  · subst here
    refine .inl ?_
    simp only [check, unswept, keyed, Function.update_self, same]
  · simp only [check, unswept, keyed, Function.update_of_ne here]
    exact now ip

end Reference

section Counts
variable {limits : Limits} {now : Nat} {bucket : RateBucket}

def Limits.width (limits : Limits) : Nat := limits.windowSecs.toNat * 1000000000

def RateBucket.tally (bucket : RateBucket) : Tally := ⟨bucket.count.toNat, bucket.windowStart⟩

theorem expired_iff : limits.windowSecs.toNat ≤ secondsSince now bucket.windowStart ↔
    ¬ now - bucket.windowStart < limits.width := by
  rw [secondsSince, Nat.le_div_iff_mul_le (by decide), Nat.not_lt, Limits.width]

theorem visit_none : visit limits none now = (decide (1 ≤ limits.maxRequests.toNat), some ⟨1, now⟩) := by
  unfold visit
  simp only [Option.getD_none, ite_self]
  rfl

theorem visit_outside (outside : ¬ now - bucket.windowStart < limits.width) :
    visit limits (some bucket) now = (decide (1 ≤ limits.maxRequests.toNat), some ⟨1, now⟩) :=
  (visit_expired (expired_iff.mpr outside)).trans visit_none

theorem count_succ {count : UInt32} (few : count.toNat + 1 < 2 ^ 32) : (count + 1).toNat = count.toNat + 1 := by
  rw [UInt32.toNat_add]
  exact Nat.mod_eq_of_lt few

theorem visit_inside (inside : now - bucket.windowStart < limits.width) :
    visit limits (some bucket) now =
      (decide (bucket.count + 1 ≤ limits.maxRequests), some ⟨bucket.count + 1, bucket.windowStart⟩) := by
  have alive : ¬ limits.windowSecs.toNat ≤ secondsSince now bucket.windowStart := by
    rw [expired_iff, not_not]
    exact inside
  unfold visit
  simp only [Option.getD_some, if_neg alive]

theorem answered_tally (bucket : RateBucket) (times : List Nat)
    (few : bucket.count.toNat + (windowsFrom limits.width bucket.windowStart times).1.length < 2 ^ 32)
    (all : ∀ window ∈ (windowsFrom limits.width bucket.windowStart times).2, window.length < 2 ^ 32) :
    (answered (visit limits) (some bucket) times).1 =
        (answered (tick limits.width limits.maxRequests.toNat) (some bucket.tally) times).1 ∧
      (answered (visit limits) (some bucket) times).2.map RateBucket.tally =
        (answered (tick limits.width limits.maxRequests.toNat) (some bucket.tally) times).2 := by
  induction times generalizing bucket with
  | nil => exact ⟨rfl, rfl⟩
  | cons now times ih =>
    by_cases inside : now - bucket.windowStart < limits.width
    · rw [windowsFrom_inside inside, List.length_cons] at few
      rw [windowsFrom_inside inside] at all
      have more : (bucket.count + 1).toNat = bucket.count.toNat + 1 := count_succ (by omega)
      have next := ih ⟨bucket.count + 1, bucket.windowStart⟩ (by dsimp only; rw [more]; omega) all
      have tally : (⟨bucket.count + 1, bucket.windowStart⟩ : RateBucket).tally =
          ⟨bucket.count.toNat + 1, bucket.windowStart⟩ := congrArg (Tally.mk · bucket.windowStart) more
      rw [tally] at next
      have counted : tick limits.width limits.maxRequests.toNat (some bucket.tally) now =
          (decide (bucket.count.toNat + 1 ≤ limits.maxRequests.toNat),
            some ⟨bucket.count.toNat + 1, bucket.windowStart⟩) := tick_inside inside
      simp only [answered, visit_inside inside, counted, next, UInt32.le_iff_toNat_le, more, and_self]
    · rw [windowsFrom_outside inside, windows_cons] at all
      obtain ⟨own, later⟩ := List.forall_mem_cons.mp all
      rw [List.length_cons] at own
      have room : 1 + (windowsFrom limits.width now times).1.length < 2 ^ 32 := by omega
      have next := ih ⟨1, now⟩ room later
      have counted : tick limits.width limits.maxRequests.toNat (some bucket.tally) now =
          (decide (1 ≤ limits.maxRequests.toNat), some ⟨1, now⟩) := tick_outside inside
      simp only [answered, visit_outside inside, counted]
      exact ⟨congrArg (List.cons _) next.1, next.2⟩

theorem answered_visit (times : List Nat)
    (few : ∀ window ∈ windows limits.width times, window.length < 2 ^ 32) :
    (answered (visit limits) none times).1 =
        (answered (tick limits.width limits.maxRequests.toNat) none times).1 ∧
      (answered (visit limits) none times).2.map RateBucket.tally =
        (answered (tick limits.width limits.maxRequests.toNat) none times).2 := by
  cases times with
  | nil => exact ⟨rfl, rfl⟩
  | cons now times =>
    rw [windows_cons] at few
    obtain ⟨own, later⟩ := List.forall_mem_cons.mp few
    rw [List.length_cons] at own
    have room : 1 + (windowsFrom limits.width now times).1.length < 2 ^ 32 := by omega
    have next := answered_tally ⟨1, now⟩ times room later
    simp only [answered, visit_none, tick_fresh]
    exact ⟨congrArg (List.cons _) next.1, next.2⟩

end Counts

section Requests

/-- The address of the connection and the headers: a header may be missing, or not be text. -/
structure Request where
  connectInfo : Option SocketAddr
  header : String → Option (Option (List Char))

def peerIp (req : Request) : IpAddr := (req.connectInfo.map SocketAddr.ip).getD (.v4 ⟨127, 0, 0, 1⟩)

def isLoopback : IpAddr → Bool
  | .v4 v4 => v4.isLoopback
  | .v6 v6 => v6.isLoopback

def isUnspecified : IpAddr → Bool
  | .v4 v4 => v4.isUnspecified
  | .v6 v6 => v6.isUnspecified

def isPrivateV4 (v4 : Ipv4Addr) : Bool := v4.isPrivate || v4.isLinkLocal || v4.isLoopback

def isPrivate : IpAddr → Bool
  | .v4 v4 => isPrivateV4 v4
  | .v6 v6 =>
    match v6.toIpv4Mapped with
    | some v4 => isPrivateV4 v4
    | none => v6.s0 &&& 0xfe00 == 0xfc00 || v6.s0 &&& 0xffc0 == 0xfe80 || v6.isLoopback

/-- `rsplit(',').next()` -/
def lastSegment (value : List Char) : List Char := (value.reverse.takeWhile (· ≠ ',')).reverse

variable {Net : Type} (contains : Net → IpAddr → Bool) (parseIp : List Char → Option IpAddr)

def realIp (req : Request) : Option IpAddr :=
  ((req.header "x-real-ip").bind id).bind fun value => parseIp (trimBy isWhitespace value)

def forwardedIp (req : Request) : Option IpAddr :=
  (((req.header "x-forwarded-for").bind id).bind fun value =>
    parseIp (trimBy isWhitespace (lastSegment value))).filter fun ip =>
      !isLoopback ip && !isUnspecified ip && !isPrivate ip

/-- `contains` is that of the crate for networks, `parseIp` the parser of the standard library. -/
def extractIp (req : Request) (trustedProxies : List Net) : IpAddr :=
  let direct := peerIp req
  if trustedProxies.isEmpty || !trustedProxies.any (fun net => contains net direct) then direct
  else ((realIp parseIp req).or (forwardedIp parseIp req)).getD direct

/-- Whether a request goes on to its route; else it is answered with 429. -/
def layer (limits : Limits) (trustedProxies : List Net) (limiter : RateLimiter IpAddr) (req : Request × Nat) :
    Bool × RateLimiter IpAddr :=
  check limits limiter (extractIp contains parseIp req.1 trustedProxies, req.2)

theorem extractIp_untrusted {req : Request} {trustedProxies : List Net}
    (outside : ∀ net ∈ trustedProxies, contains net (peerIp req) = false) :
    extractIp contains parseIp req trustedProxies = peerIp req := by
  have none' : trustedProxies.any (fun net => contains net (peerIp req)) = false :=
    List.any_eq_false.mpr fun net inside => by rw [outside net inside]; exact Bool.false_ne_true
  rw [extractIp, none', Bool.not_false, Bool.or_true]
  rfl

end Requests

section Runs
variable {limits : Limits} {calls : List (IpAddr × Nat)}

def timesOf (ip : IpAddr) (calls : List (IpAddr × Nat)) : List Nat := (calls.filter fun call => call.1 = ip).map
    Prod.snd

def answersTo (limits : Limits) (ip : IpAddr) (calls : List (IpAddr × Nat)) : List (Nat × Bool) :=
  ((answered (check limits) .new calls).1.filter fun answer => answer.1.1 = ip).map fun answer => (answer.1.2, answer.2)

theorem answersTo_visit (half : limits.windowSecs.toNat * 2 < 2 ^ 64)
    (ordered : (calls.map Prod.snd).Pairwise (· ≤ ·)) (ip : IpAddr) :
    answersTo limits ip calls = (answered (visit limits) none (timesOf ip calls)).1 ∧
      ((answered (check limits) .new calls).2.entries ip = (answered (visit limits) none (timesOf ip calls)).2 ∨
        (answered (check limits) .new calls).2.entries ip = none) := by
  have start : Swept limits 0 RateLimiter.new (fun _ : IpAddr => none) := fun _ => .inl rfl
  obtain ⟨same, last, swept⟩ := answered_simulates (check limits) (unswept limits)
    (fun swept order => check_simulates half swept order) start
    (List.pairwise_cons.mpr ⟨fun now _ => Nat.zero_le now, ordered⟩)
  obtain ⟨answers, entry⟩ := answered_keyed Prod.fst (fun bucket call => visit limits bucket call.2)
    (fun _ : IpAddr => none) ip calls
  obtain ⟨parts, bucket⟩ := answered_part (visit limits) none Prod.snd
    (calls.filter fun call => call.1 = ip)
  constructor
  · rw [answersTo, same]
    exact (congrArg (List.map _) answers).trans parts
  · have held : (answered (unswept limits) (fun _ : IpAddr => none) calls).2 ip =
        (answered (visit limits) none (timesOf ip calls)).2 := entry.trans bucket
    rcases swept ip with kept | ⟨gone, -⟩
    · exact .inl (kept.trans held)
    · exact .inr gone

theorem timesOf_filter (ip : IpAddr) (calls : List (IpAddr × Nat)) :
    timesOf ip (calls.filter fun call => call.1 = ip) = timesOf ip calls := by
  simp only [timesOf, List.filter_filter, Bool.and_self]

theorem timesOf_ordered (ordered : (calls.map Prod.snd).Pairwise (· ≤ ·)) (ip : IpAddr) :
    (timesOf ip calls).Pairwise (· ≤ ·) := ordered.sublist (List.filter_sublist.map Prod.snd)

/-- A run of the limiter as one of its addresses sees it, as long as no sum wraps around; and whose bucket a request
from outside the trusted proxies counts against. -/
theorem http_rate_limit (limits : Limits) (calls : List (IpAddr × Nat))
    (ordered : (calls.map Prod.snd).Pairwise (· ≤ ·))
    (half : limits.windowSecs.toNat * 2 < 2 ^ 64) (ip : IpAddr)
    (few : ∀ window ∈ windows limits.width (timesOf ip calls), window.length < 2 ^ 32) :
    answersTo limits ip calls = answersTo limits ip (calls.filter fun call => call.1 = ip) ∧
      (answersTo limits ip calls).map Prod.snd = (windows limits.width (timesOf ip calls)).flatMap
        (fun window => grants limits.maxRequests.toNat 0 window.length) ∧
      (windows limits.width (timesOf ip calls)).flatten = timesOf ip calls ∧
      (∀ bucket, (answered (check limits) .new calls).2.entries ip = some bucket →
        ∃ window, (windows limits.width (timesOf ip calls)).getLast? = some window ∧
          window.head? = some bucket.windowStart) ∧
      (∀ window ∈ windows limits.width (timesOf ip calls),
        (grants limits.maxRequests.toNat 0 window.length).count true ≤ limits.maxRequests.toNat) ∧
      (∀ first last, last < first + limits.width →
        (allowedIn first last (answersTo limits ip calls)).length ≤ 2 * limits.maxRequests.toNat) ∧
      ((∀ window ∈ windows limits.width (timesOf ip calls), window.length ≤ limits.maxRequests.toNat) →
        ∀ answer ∈ answersTo limits ip calls, answer.2 = true) ∧
      ∀ (Net : Type) (contains : Net → IpAddr → Bool) (parseIp : List Char → Option IpAddr) (req : Request)
        (trustedProxies : List Net), (∀ net ∈ trustedProxies, contains net (peerIp req) = false) →
          ∀ limiter now, layer contains parseIp limits trustedProxies limiter (req, now) =
            check limits limiter (peerIp req, now) := by
  obtain ⟨answers, entry⟩ := answersTo_visit half ordered ip
  obtain ⟨counted, bucket⟩ := answered_visit (timesOf ip calls) few
  obtain ⟨granted, last⟩ := answered_windows limits.width limits.maxRequests.toNat (timesOf ip calls)
  have told : (answersTo limits ip calls).map Prod.snd = (windows limits.width (timesOf ip calls)).flatMap
      fun window => grants limits.maxRequests.toNat 0 window.length := by
    rw [answers, counted, granted]
  refine ⟨?_, told, windows_flatten _ _, ?_, ?_, ?_, ?_, ?_⟩
  · have alone : ((calls.filter fun call => call.1 = ip).map Prod.snd).Pairwise (· ≤ ·) := timesOf_ordered ordered ip
    rw [answers, (answersTo_visit half alone ip).1, timesOf_filter]
  · intro held found
    rcases entry with kept | gone
    · rw [← kept, found] at bucket
      exact last held.tally bucket.symm
    · rw [gone] at found
      cases found
  · exact fun window _ => grants_count_le _ 0 _
  · intro first last short
    rw [answers, counted]
    exact allowedIn_le (timesOf_ordered ordered ip) short none
  · intro within answer inside
    have known : answer.2 ∈ (answersTo limits ip calls).map Prod.snd := List.mem_map_of_mem inside
    rw [told] at known
    obtain ⟨window, place, known⟩ := List.mem_flatMap.mp known
    exact grants_few ((Nat.zero_add _).trans_le (within window place)) _ known
  · intro Net contains parseIp req trustedProxies outside limiter now
    rw [layer, extractIp_untrusted contains parseIp outside]

end Runs

section Samples

def one : Limits := ⟨1, 60⟩

def localhost : IpAddr := .v4 ⟨127, 0, 0, 1⟩

theorem http_rate_limit_sample :
    (answersTo one localhost [(localhost, 0), (.v4 ⟨10, 0, 0, 1⟩, 5), (localhost, 7)]).map Prod.snd = [true, false] ∧
      layer (fun (_ : Unit) _ => true) (fun _ => none) one [] .new (⟨none, fun _ => none⟩, 3) =
        check one .new (localhost, 3) := by
  obtain ⟨-, told, -, -, -, -, -, requests⟩ := http_rate_limit one
    [(localhost, 0), (.v4 ⟨10, 0, 0, 1⟩, 5), (localhost, 7)] (by decide) (by decide) localhost (by decide +kernel)
  refine ⟨told.trans (by decide +kernel), ?_⟩
  exact requests Unit (fun _ _ => true) (fun _ => none) ⟨none, fun _ => none⟩
      [] (fun _ impossible => by cases impossible)
    .new 3

theorem visit_one (count : UInt32) :
    visit one (some ⟨count, 0⟩) 0 = (decide (count + 1 ≤ 1), some ⟨count + 1, 0⟩) := by
  have minute : 0 < one.width := by decide
  exact visit_inside minute

theorem answered_one (n : Nat) (count : UInt32) :
    (answered (visit one) (some ⟨count, 0⟩) (List.replicate n 0)).2 = some ⟨count + UInt32.ofNat n, 0⟩ := by
  induction n generalizing count with
  | zero => exact congrArg (fun c => some (RateBucket.mk c 0)) (UInt32.add_zero count).symm
  | succ n ih =>
    rw [List.replicate_succ, answered, visit_one, ih]
    refine congrArg (fun c => some (RateBucket.mk c 0)) ?_
    rw [UInt32.add_assoc, UInt32.ofNat_add, UInt32.add_comm 1]
    rfl

theorem wraps (n : Nat) (full : 1 + UInt32.ofNat n = 0xffffffff) :
    3 ≤ (allowedIn 0 0 (answered (visit one) none (List.replicate (1 + n + 2) 0)).1).length := by
  have parts : List.replicate (1 + n + 2) 0 = 0 :: (List.replicate n 0 ++ [0, 0]) := by
    rw [List.replicate_add, List.replicate_add]
    rfl
  have fresh : visit one none 0 = (true, some ⟨1, 0⟩) := visit_none
  rw [parts, answered, fresh, answered_append, answered_one, full]
  have last : answered (visit one) (some ⟨0xffffffff, 0⟩) [0, 0] = ([(0, true), (0, true)], some ⟨1, 0⟩) := by
    rw [answered, visit_one, answered, visit_one]
    rfl
  rw [last, allowedIn, List.filter_cons_of_pos (by decide), List.filter_append, List.length_cons, List.length_append]
  have two : ([(0, true), (0, true)].filter fun answer : Nat × Bool =>
      answer.2 = true ∧ 0 ≤ answer.1 ∧ answer.1 ≤ 0).length = 2 := by decide
  rw [two]
  omega

/-- Three requests through in one window of a limiter for one, after 2^32 of them at the same instant. -/
theorem http_rate_limit_wraps :
    ¬ ∀ (limits : Limits) (calls : List (IpAddr × Nat)), (calls.map Prod.snd).Pairwise (· ≤ ·) → ∀ (ip : IpAddr)
      (first last : Nat), last < first + limits.width →
        (allowedIn first last (answersTo limits ip calls)).length ≤ 2 * limits.maxRequests.toNat := by
  intro bounded
  have ordered : ((List.replicate (1 + 4294967294 + 2) (localhost, 0)).map Prod.snd).Pairwise (· ≤ ·) := by
    rw [List.map_replicate]
    exact List.pairwise_replicate.mpr (.inr (Nat.le_refl 0))
  have most := bounded one _ ordered localhost 0 0 (by decide)
  have times : timesOf localhost (List.replicate (1 + 4294967294 + 2) (localhost, 0)) =
      List.replicate (1 + 4294967294 + 2) 0 := by
    rw [timesOf, List.filter_replicate_of_pos (by decide), List.map_replicate]
  rw [(answersTo_visit (by decide) ordered localhost).1, times] at most
  have three := wraps 4294967294 (by decide)
  have two : 2 * one.maxRequests.toNat = 2 := rfl
  omega

end Samples
end Echo.Server.RateLimits
