import Mathlib.NumberTheory.LucasPrimality
import Attest.Bn254
import Attest.Proofs.Ring

/-! Large primes, by certificates.

A number is prime when a residue modulo it has the number before it as its order
(`lucas_primality`), which is checked with the prime factors of that number. A certificate lists
primes in such an order that these factors are small, and found prime by trial, or come earlier
(`PrimeStep.prime_of_mem`). The two primes of the curve are in it, and so are the prime
factors of the number of points of the second curve (`cofactorPrimes`). -/
namespace Attest

/-! ### Checking -/

/-- No number from `d` on, among as many as are tried, divides `n`, and the last one's square is
past it. -/
def noDivisor (n : Nat) : Nat → Nat → Bool
  | _, 0 => false
  | d, tries + 1 => decide (n < d * d) || decide (n % d ≠ 0) && noDivisor n (d + 1) tries

theorem mod_ne_zero_of_noDivisor {n d e tries : Nat} (h : noDivisor n d tries = true)
    (hle : d ≤ e) (hsquare : e * e ≤ n) : n % e ≠ 0 := by
  induction tries generalizing d with
  | zero => exact nomatch h
  | succ tries ih =>
    rw [noDivisor, Bool.or_eq_true, Bool.and_eq_true, decide_eq_true_iff, decide_eq_true_iff] at h
    rcases h with hlt | ⟨hd, hrest⟩
    · exact absurd (Nat.mul_le_mul hle hle) (by omega)
    · rcases hle.eq_or_lt with rfl | hlt
      · exact hd
      · exact ih hrest hlt

/-- A number is found prime by trying the numbers up to its root. -/
def triedPrime (n : Nat) : Bool := decide (2 ≤ n) && noDivisor n 2 1024

theorem prime_of_triedPrime {n : Nat} (h : triedPrime n = true) : n.Prime := by
  rw [triedPrime, Bool.and_eq_true, decide_eq_true_iff] at h
  obtain ⟨htwo, htried⟩ := h
  by_contra hprime
  have hsquare : n.minFac * n.minFac ≤ n := by
    rw [← pow_two]
    exact Nat.minFac_sq_le_self (by omega) hprime
  have hfac : n.minFac.Prime := Nat.minFac_prime (by omega)
  exact mod_ne_zero_of_noDivisor htried hfac.two_le hsquare
    (Nat.mod_eq_zero_of_dvd n.minFac_dvd)

/-- A prime, a number whose powers are all residues but zero, and the prime factors of the number
before the prime with their exponents. -/
structure PrimeStep where
  prime : Nat
  generator : Nat
  factors : List (Nat × Nat)

namespace PrimeStep

/-- The step holds when the primes before it are those given. -/
def holds (known : List Nat) (s : PrimeStep) : Bool :=
  if h : 0 < s.prime then
    have : Modulus s.prime := ⟨h⟩
    let g : Residue s.prime := .ofNat s.generator
    decide ((s.factors.map fun f => f.1 ^ f.2).prod = s.prime - 1) &&
      s.factors.all (fun f => known.contains f.1 || triedPrime f.1) &&
      decide (g ^ (s.prime - 1) = 1) &&
      s.factors.all fun f => decide (g ^ ((s.prime - 1) / f.1) ≠ 1)
  else false

theorem prime_of_holds {known : List Nat} {s : PrimeStep} (hknown : ∀ n ∈ known, n.Prime)
    (h : s.holds known = true) : s.prime.Prime := by
  unfold holds at h
  split at h
  · next hpos =>
    have : Modulus s.prime := ⟨hpos⟩
    simp only [Bool.and_eq_true, decide_eq_true_eq, List.all_eq_true, Bool.or_eq_true,
      List.contains_iff_mem] at h
    obtain ⟨⟨⟨hprod, hfactors⟩, hone⟩, hne⟩ := h
    have hto {n : Nat} : ((Residue.ofNat s.generator : Residue s.prime) ^ n = 1) ↔
        (s.generator : ZMod s.prime) ^ n = 1 := by
      rw [← Residue.toZMod_injective.eq_iff, Residue.toZMod_pow, Residue.toZMod_one,
        Residue.toZMod_ofNat]
    refine lucas_primality s.prime s.generator (hto.mp hone) fun l hl hdvd => ?_
    -- a prime that divides the number before is one of the factors
    rw [← hprod, hl.prime.dvd_prod_iff] at hdvd
    obtain ⟨_, hmem, hdvd⟩ := hdvd
    obtain ⟨f, hf, rfl⟩ := List.mem_map.mp hmem
    have hprime : f.1.Prime := (hfactors f hf).elim (hknown f.1) prime_of_triedPrime
    obtain rfl := (Nat.prime_dvd_prime_iff_eq hl hprime).mp (hl.dvd_of_dvd_pow hdvd)
    exact fun hpow => hne f hf (hto.mpr hpow)
  · exact absurd h Bool.false_ne_true

/-- Every step holds with the primes before it. -/
def allHold : List Nat → List PrimeStep → Bool
  | _, [] => true
  | known, s :: rest => s.holds known && allHold (s.prime :: known) rest

theorem prime_of_mem {known : List Nat} {steps : List PrimeStep} (hknown : ∀ n ∈ known, n.Prime)
    (h : allHold known steps = true) {s : PrimeStep} (hs : s ∈ steps) : s.prime.Prime := by
  induction steps generalizing known with
  | nil => exact nomatch hs
  | cons first rest ih =>
    obtain ⟨hfirst, hrest⟩ := Bool.and_eq_true_iff.mp h
    have hprime := prime_of_holds hknown hfirst
    rcases List.mem_cons.mp hs with rfl | hs
    · exact hprime
    · exact ih (List.forall_mem_cons.mpr ⟨hprime, hknown⟩) hrest hs

end PrimeStep

namespace Bn254

/-! ### The primes of the curve -/

/-- The prime factors of the number of points of the second curve, but for the order. -/
def cofactorPrimes : List Nat :=
  [10069, 5864401, 1875725156269, 197620364512881247228717050342013327560683201906968909]

/-- The steps to the primes of the curve. -/
def primeSteps : List PrimeStep :=
  [ ⟨5864401, 38, [(2, 4), (3, 4), (5, 2), (181, 1)]⟩,
    ⟨17367825521, 3, [(2, 4), (5, 1), (19, 2), (601379, 1)]⟩,
    ⟨1875725156269, 2, [(2, 2), (3, 3), (17367825521, 1)]⟩,
    ⟨5835139, 3, [(2, 1), (3, 1), (61, 1), (107, 1), (149, 1)]⟩,
    ⟨758568071, 14, [(2, 1), (5, 1), (13, 1), (5835139, 1)]⟩,
    ⟨1309000310535827101, 2, [(2, 2), (3, 1), (5, 2), (43, 1), (133769, 1), (758568071, 1)]⟩,
    ⟨1233079, 11, [(2, 1), (3, 1), (7, 1), (11, 1), (17, 1), (157, 1)]⟩,
    ⟨1612327, 5, [(2, 1), (3, 1), (268721, 1)]⟩,
    ⟨677736056450657, 3, [(2, 5), (7, 1), (23, 1), (83, 1), (983, 1), (1612327, 1)]⟩,
    ⟨209661715479349446893, 2, [(2, 2), (77339, 1), (677736056450657, 1)]⟩,
    ⟨3458579658547348475946929, 3, [(2, 4), (1031, 1), (209661715479349446893, 1)]⟩,
    ⟨213235097339095295568608163219551, 31,
      [(2, 1), (5, 2), (1233079, 1), (3458579658547348475946929, 1)]⟩,
    ⟨197620364512881247228717050342013327560683201906968909, 2,
      [(2, 2), (3, 1), (59, 1), (1309000310535827101, 1), (213235097339095295568608163219551, 1)]⟩,
    ⟨405928799, 22, [(2, 1), (11, 1), (3691, 1), (4999, 1)]⟩,
    ⟨11465965001, 3, [(2, 3), (5, 4), (7, 1), (327599, 1)]⟩,
    ⟨1853641, 17, [(2, 3), (3, 2), (5, 1), (19, 1), (271, 1)]⟩,
    ⟨4562087, 5, [(2, 1), (17, 1), (109, 1), (1231, 1)]⟩,
    ⟨173171039, 13, [(2, 1), (73, 1), (89, 1), (13327, 1)]⟩,
    ⟨1263766531, 10, [(2, 1), (3, 1), (5, 1), (13, 1), (911, 1), (3557, 1)]⟩,
    ⟨35385462869, 2, [(2, 2), (7, 1), (1263766531, 1)]⟩,
    ⟨2480874801745591, 6, [(2, 1), (3, 2), (5, 1), (19, 1), (41, 1), (35385462869, 1)]⟩,
    ⟨13427688667394608761327070753331941386769, 17,
      [(2, 4), (3, 1), (7, 1), (11, 1), (1853641, 1), (4562087, 1), (173171039, 1),
        (2480874801745591, 1)]⟩,
    ⟨21888242871839275222246405745257275088696311157297823662689037894645226208583, 3,
      [(2, 1), (3, 2), (13, 1), (29, 1), (67, 1), (229, 1), (311, 1), (983, 1), (11003, 1),
        (405928799, 1), (11465965001, 1), (13427688667394608761327070753331941386769, 1)]⟩,
    ⟨12048837557, 2, [(2, 2), (7, 2), (661, 1), (93001, 1)]⟩,
    ⟨5156902474397, 2, [(2, 2), (107, 1), (12048837557, 1)]⟩,
    ⟨1670836401704629, 2, [(2, 2), (3, 4), (5156902474397, 1)]⟩,
    ⟨1593227, 2, [(2, 1), (19, 1), (41927, 1)]⟩,
    ⟨639533339, 2, [(2, 1), (229, 1), (853, 1), (1637, 1)]⟩,
    ⟨65865678001877903, 5, [(2, 1), (83, 1), (379, 1), (1637, 1), (639533339, 1)]⟩,
    ⟨13818364434197438864469338081, 3,
      [(2, 5), (5, 1), (823, 1), (1593227, 1), (65865678001877903, 1)]⟩,
    ⟨21888242871839275222246405745257275088548364400416034343698204186575808495617, 5,
      [(2, 28), (3, 2), (13, 1), (29, 1), (983, 1), (11003, 1), (237073, 1), (405928799, 1),
        (1670836401704629, 1), (13818364434197438864469338081, 1)]⟩]

theorem primeSteps_hold : PrimeStep.allHold [] primeSteps = true := by decide +kernel

/-- The numbers that the steps lead to are prime. -/
theorem prime_of_primeSteps {n : Nat} (h : n ∈ primeSteps.map PrimeStep.prime) : n.Prime := by
  obtain ⟨s, hs, rfl⟩ := List.mem_map.mp h
  exact PrimeStep.prime_of_mem (List.forall_mem_nil _) primeSteps_hold hs

theorem basePrime_prime : basePrime.Prime := prime_of_primeSteps (by decide +kernel)

theorem order_prime : order.Prime := prime_of_primeSteps (by decide +kernel)

theorem cofactorPrimes_prime : ∀ n ∈ cofactorPrimes, n.Prime := by
  have hfactors : ∀ n ∈ cofactorPrimes,
      n ∈ primeSteps.map PrimeStep.prime ∨ triedPrime n = true := by decide +kernel
  exact fun n hn => (hfactors n hn).elim prime_of_primeSteps prime_of_triedPrime

end Bn254

end Attest
