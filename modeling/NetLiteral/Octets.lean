import NetLiteral.Bytes

/-!
# Arithmetic on octets

Masking and counting on big-endian octets of any length. A prefix of `p` bits is kept, and the host
bits after it are cleared, set or ignored. A prefix longer than the octets has no host bits.
-/

namespace NetLiteral.Octets

/-- The octets as a number, most significant octet first. -/
def value (octets : Bytes) : Nat :=
  octets.foldl (fun n b => 256 * n + b.toNat) 0

/-- Keeps the top `bits` bits of an octet, where `bits` is below eight. -/
def keepMask (bits : Nat) : UInt8 :=
  if bits = 0 then 0 else 0xFF <<< UInt8.ofNat (8 - bits)

/-- Clears every bit after the first `p` bits. -/
def network : Bytes → Nat → Bytes
  | [], _ => []
  | b :: bs, p =>
    if 8 ≤ p then b :: network bs (p - 8)
    else (b &&& keepMask p) :: bs.map fun _ => 0

def broadcast : Bytes → Nat → Bytes
  | [], _ => []
  | b :: bs, p =>
    if 8 ≤ p then b :: broadcast bs (p - 8)
    else (b ||| ~~~keepMask p) :: bs.map fun _ => 0xFF

/-- Whether two lists of octets have one length and agree on the first `p` bits. -/
def sameNetwork : Bytes → Bytes → Nat → Bool
  | [], [], _ => true
  | a :: as, b :: bs, p =>
    if 8 ≤ p then a == b && sameNetwork as bs (p - 8)
    else as.length == bs.length && a &&& keepMask p == b &&& keepMask p
  | _, _, _ => false

/-- The next number in as many octets, and whether there is one. Past the greatest number the
octets wrap to zero. -/
def increment : Bytes → Bool × Bytes
  | [] => (false, [])
  | b :: bs =>
    match increment bs with
    | (true, bs') => (true, b :: bs')
    | (false, bs') => (b != 0xFF, (b + 1) :: bs')

theorem length_network (octets : Bytes) (p : Nat) : (network octets p).length = octets.length := by
  induction octets generalizing p with
  | nil => rfl
  | cons b bs ih => simp only [network]; split <;> simp [ih]

theorem length_broadcast (octets : Bytes) (p : Nat) :
    (broadcast octets p).length = octets.length := by
  induction octets generalizing p with
  | nil => rfl
  | cons b bs ih => simp only [broadcast]; split <;> simp [ih]

theorem length_increment (octets : Bytes) : (increment octets).2.length = octets.length := by
  induction octets with
  | nil => rfl
  | cons b bs ih => simp only [increment]; split <;> simp_all

theorem network_network (octets : Bytes) (p : Nat) :
    network (network octets p) p = network octets p := by
  induction octets generalizing p with
  | nil => rfl
  | cons b bs ih =>
    simp only [network]
    split
    · simp [network, *]
    · simp [network, *, UInt8.and_assoc]

end NetLiteral.Octets
