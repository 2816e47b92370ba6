import Echo.Signal.Ratchet

/- The key schedule two honest parties share. Sending chains alternate: epoch 0 is Bob's
signed prekey, odd epochs are Alice's chains, even ones Bob's. The private keys alone fix
every root and chain key. -/
namespace Echo.Signal
open Echo.Lib

section
variable (P : Primitives) (sharedSecret : P.Key) (secret : Nat → P.Secret)

def epochPublic (e : Nat) : Block 32 := P.publicKey (secret e)

def epochKeys : Nat → P.Key × P.Key
  | 0 => (sharedSecret, P.zeroKey)
  | e + 1 => kdfRk P (epochKeys e).1 (P.diffieHellman (secret (e + 1)) (epochPublic P secret e))

def epochRoot (e : Nat) : P.Key := (epochKeys P sharedSecret secret e).1
def epochChain (e : Nat) : P.Key := (epochKeys P sharedSecret secret e).2

end

section
variable {P : Primitives} {sharedSecret : P.Key}

theorem epochKeys_receiver (lawful : P.Lawful) (secret : Nat → P.Secret) (e : Nat) :
    kdfRk P (epochRoot P sharedSecret secret e)
      (P.diffieHellman (secret e) (epochPublic P secret (e + 1))) =
      (epochRoot P sharedSecret secret (e + 1), epochChain P sharedSecret secret (e + 1)) := by
  rw [epochPublic, lawful.dh_comm]
  rfl

theorem epochKeys_congr {f g : Nat → P.Secret} {e : Nat} (same : ∀ i, i ≤ e → f i = g i) :
    epochKeys P sharedSecret f e = epochKeys P sharedSecret g e := by
  induction e with
  | zero => rfl
  | succ e ih =>
    have before := ih (fun i hi => same i (Nat.le_succ_of_le hi))
    have last := same (e + 1) (Nat.le_refl _)
    have prior := same e (Nat.le_succ e)
    simp only [epochKeys, epochPublic, before, last, prior]

end
end Echo.Signal
