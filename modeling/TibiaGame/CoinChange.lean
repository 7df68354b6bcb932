import Mathlib.Tactic

/-!
# Paying with coins

`calculate_change` of `info.cpp`: how many coins of each kind a creature gives for an amount. A
negative number is change that is handed out.
-/

namespace TibiaGame.CoinChange

structure Purse where
  gold : Int32
  platinum : Int32
  crystal : Int32

def Purse.total (purse : Purse) : Int32 :=
  purse.crystal * 10000 + purse.platinum * 100 + purse.gold

/-- The end of the last `else` branch, with the crystal coins that are used. -/
def payRest (owned : Purse) (crystal amountRem : Int32) : Purse :=
  let amountPl := amountRem / 100
  let amountGo := amountRem % 100
  if owned.gold < amountGo then ⟨amountGo - 100, amountPl + 1, crystal⟩
  else if owned.platinum < amountPl then ⟨amountRem - owned.platinum * 100, owned.platinum, crystal⟩
  else ⟨amountGo, amountPl, crystal⟩

def calculateChange (amount : Int32) (owned : Purse) : Purse :=
  if owned.total < amount then owned
  else
    let amountCr := amount / 10000
    let amountRem := amount % 10000
    if owned.platinum * 100 + owned.gold < amountRem then
      ⟨(amountRem - 10000) % 100, (amountRem - 10000) / 100, amountCr + 1⟩
    else if owned.crystal < amountCr then
      payRest owned owned.crystal (amount - owned.crystal * 10000)
    else payRest owned amountCr amountRem

section Worth

def worth (purse : Purse) : Int :=
  purse.crystal.toInt * 10000 + purse.platinum.toInt * 100 + purse.gold.toInt

/-- The purse of a creature: no negative numbers, and worth an `int`. -/
structure Solvent (owned : Purse) : Prop where
  gold : 0 ≤ owned.gold.toInt
  platinum : 0 ≤ owned.platinum.toInt
  crystal : 0 ≤ owned.crystal.toInt
  fits : worth owned < 2 ^ 31

/-- One number of coins: those that are given are owned, and those that are handed out are few. -/
def Covered (paid owned : Int32) : Prop :=
  (0 < paid.toInt → paid.toInt ≤ owned.toInt) ∧ (paid.toInt < 0 → -100 < paid.toInt)

structure Pays (amount : Int) (owned paid : Purse) : Prop where
  exact : worth paid = amount
  gold : Covered paid.gold owned.gold
  platinum : Covered paid.platinum owned.platinum
  crystal : Covered paid.crystal owned.crystal

variable {owned : Purse} {amount : Int32}

theorem add_exact {left right : Int32} (low : -2 ^ 31 ≤ left.toInt + right.toInt)
    (high : left.toInt + right.toInt < 2 ^ 31) :
    (left + right).toInt = left.toInt + right.toInt := by
  rw [Int32.toInt_add]
  apply Int.bmod_eq_of_le <;> omega

theorem sub_exact {left right : Int32} (low : -2 ^ 31 ≤ left.toInt - right.toInt)
    (high : left.toInt - right.toInt < 2 ^ 31) :
    (left - right).toInt = left.toInt - right.toInt := by
  rw [Int32.toInt_sub]
  apply Int.bmod_eq_of_le <;> omega

theorem mul_exact {count value : Int32} (low : -2 ^ 31 ≤ count.toInt * value.toInt)
    (high : count.toInt * value.toInt < 2 ^ 31) :
    (count * value).toInt = count.toInt * value.toInt := by
  rw [Int32.toInt_mul]
  apply Int.bmod_eq_of_le <;> omega

theorem hundred : (100 : Int32).toInt = 100 := rfl

theorem ten_thousand : (10000 : Int32).toInt = 10000 := rfl

theorem div_exact (value : Int32) {unit : Int32} (large : 1 < unit.toInt) :
    (value / unit).toInt = value.toInt.tdiv unit.toInt := by
  apply Int32.toInt_div_of_ne_right
  intro minus
  rw [minus] at large
  exact absurd large (by decide)

theorem quotient_of_nonneg {value unit : Int} (positive : 0 ≤ value) :
    value.tdiv unit = value / unit := Int.tdiv_eq_ediv_of_nonneg positive

variable (solvent : Solvent owned)
include solvent

theorem platinum_exact : (owned.platinum * 100).toInt = owned.platinum.toInt * 100 := by
  have fits := solvent.fits
  have gold := solvent.gold
  have platinum := solvent.platinum
  have crystal := solvent.crystal
  unfold worth at fits
  rw [mul_exact, hundred] <;> rw [hundred] <;> omega

theorem crystal_exact : (owned.crystal * 10000).toInt = owned.crystal.toInt * 10000 := by
  have fits := solvent.fits
  have gold := solvent.gold
  have platinum := solvent.platinum
  have crystal := solvent.crystal
  unfold worth at fits
  rw [mul_exact, ten_thousand] <;> rw [ten_thousand] <;> omega

theorem small_coins_exact :
    (owned.platinum * 100 + owned.gold).toInt = owned.platinum.toInt * 100 + owned.gold.toInt := by
  have fits := solvent.fits
  have gold := solvent.gold
  have platinum := solvent.platinum
  have crystal := solvent.crystal
  unfold worth at fits
  rw [add_exact, platinum_exact solvent] <;> rw [platinum_exact solvent] <;> omega

theorem total_exact : owned.total.toInt = worth owned := by
  have fits := solvent.fits
  have gold := solvent.gold
  have platinum := solvent.platinum
  have crystal := solvent.crystal
  unfold worth at fits
  have larger : (owned.crystal * 10000 + owned.platinum * 100).toInt =
      owned.crystal.toInt * 10000 + owned.platinum.toInt * 100 := by
    rw [add_exact, crystal_exact solvent, platinum_exact solvent] <;>
      rw [crystal_exact solvent, platinum_exact solvent] <;> omega
  unfold Purse.total worth
  rw [add_exact, larger] <;> rw [larger] <;> omega

end Worth

section Payment

variable {owned : Purse} {amount : Int32}

/-- The crystal coins are settled, and the others are enough for what is left. -/
theorem rest_pays (solvent : Solvent owned) (crystal amountRem : Int32)
    (some_left : 0 ≤ amountRem.toInt)
    (enough : amountRem.toInt ≤ owned.platinum.toInt * 100 + owned.gold.toInt)
    (few : 0 ≤ crystal.toInt) (crystals : crystal.toInt ≤ owned.crystal.toInt) :
    Pays (crystal.toInt * 10000 + amountRem.toInt) owned (payRest owned crystal amountRem) := by
  have fits := solvent.fits
  have gold := solvent.gold
  have platinum := solvent.platinum
  unfold worth at fits
  have quotient : (amountRem / 100).toInt = amountRem.toInt / 100 := by
    rw [div_exact amountRem (by decide), hundred, quotient_of_nonneg some_left]
  have remainder : (amountRem % 100).toInt = amountRem.toInt % 100 := by
    rw [Int32.toInt_mod, hundred, Int.tmod_eq_emod_of_nonneg some_left]
  have covered : Covered crystal owned.crystal := ⟨fun _ => crystals, fun negative => by omega⟩
  simp only [payRest]
  split_ifs with borrowed short
  · rw [Int32.lt_iff_toInt_lt, remainder] at borrowed
    have handed : (amountRem % 100 - 100).toInt = amountRem.toInt % 100 - 100 := by
      rw [sub_exact, remainder, hundred] <;> rw [remainder, hundred] <;> omega
    have given : (amountRem / 100 + 1).toInt = amountRem.toInt / 100 + 1 := by
      have one : (1 : Int32).toInt = 1 := rfl
      rw [add_exact, quotient, one] <;> rw [quotient, one] <;> omega
    apply Pays.mk
    · simp only [worth, handed, given]
      omega
    · simp only [Covered, handed]
      omega
    · simp only [Covered, given]
      omega
    · exact covered
  · rw [Int32.lt_iff_toInt_lt, quotient] at short
    have given : (amountRem - owned.platinum * 100).toInt =
        amountRem.toInt - owned.platinum.toInt * 100 := by
      rw [sub_exact, platinum_exact solvent] <;> rw [platinum_exact solvent] <;> omega
    apply Pays.mk
    · simp only [worth, given]
      omega
    · simp only [Covered, given]
      omega
    · simp only [Covered]
      omega
    · exact covered
  · rw [Int32.lt_iff_toInt_lt, remainder] at borrowed
    rw [Int32.lt_iff_toInt_lt, quotient] at short
    apply Pays.mk
    · simp only [worth, remainder, quotient]
      omega
    · simp only [Covered, remainder]
      omega
    · simp only [Covered, quotient]
      omega
    · exact covered

/-- A crystal coin more than the amount has is given, and the rest of it is handed out. -/
theorem large_coin_pays (solvent : Solvent owned) (wanted : 0 ≤ amount.toInt)
    (owed : amount.toInt ≤ worth owned)
    (short : owned.platinum.toInt * 100 + owned.gold.toInt < amount.toInt % 10000) :
    Pays amount.toInt owned
      ⟨(amount % 10000 - 10000) % 100, (amount % 10000 - 10000) / 100, amount / 10000 + 1⟩ := by
  have fits := solvent.fits
  have gold := solvent.gold
  have platinum := solvent.platinum
  unfold worth at fits owed
  have quotient : (amount / 10000).toInt = amount.toInt / 10000 := by
    rw [div_exact amount (by decide), ten_thousand, quotient_of_nonneg wanted]
  have remainder : (amount % 10000).toInt = amount.toInt % 10000 := by
    rw [Int32.toInt_mod, ten_thousand, Int.tmod_eq_emod_of_nonneg wanted]
  have change : (amount % 10000 - 10000).toInt = -(10000 - amount.toInt % 10000) := by
    have apart : (amount % 10000 - 10000).toInt = amount.toInt % 10000 - 10000 := by
      rw [sub_exact, remainder, ten_thousand] <;> rw [remainder, ten_thousand] <;> omega
    omega
  have handedPl : ((amount % 10000 - 10000) / 100).toInt =
      -((10000 - amount.toInt % 10000) / 100) := by
    rw [div_exact _ (by decide), change, hundred, Int.neg_tdiv, quotient_of_nonneg (by omega)]
  have handedGo : ((amount % 10000 - 10000) % 100).toInt =
      -((10000 - amount.toInt % 10000) % 100) := by
    rw [Int32.toInt_mod, change, hundred, Int.neg_tmod, Int.tmod_eq_emod_of_nonneg (by omega)]
  have given : (amount / 10000 + 1).toInt = amount.toInt / 10000 + 1 := by
    have one : (1 : Int32).toInt = 1 := rfl
    rw [add_exact, quotient, one] <;> rw [quotient, one] <;> omega
  apply Pays.mk
  · simp only [worth, handedPl, handedGo, given]
    omega
  · simp only [Covered, handedGo]
    omega
  · simp only [Covered, handedPl]
    omega
  · simp only [Covered, given]
    omega

/-- Whoever owns enough pays the amount with coins that he has, and gets little change. -/
theorem change_pays (solvent : Solvent owned) (wanted : 0 ≤ amount.toInt)
    (owed : amount.toInt ≤ worth owned) :
    Pays amount.toInt owned (calculateChange amount owned) := by
  have quotient : (amount / 10000).toInt = amount.toInt / 10000 := by
    rw [div_exact amount (by decide), ten_thousand, quotient_of_nonneg wanted]
  have remainder : (amount % 10000).toInt = amount.toInt % 10000 := by
    rw [Int32.toInt_mod, ten_thousand, Int.tmod_eq_emod_of_nonneg wanted]
  unfold calculateChange
  rw [if_neg (by rw [Int32.lt_iff_toInt_lt, total_exact solvent]; omega)]
  simp only [Int32.lt_iff_toInt_lt, small_coins_exact solvent, quotient, remainder]
  split_ifs with short all
  · exact large_coin_pays solvent wanted owed short
  · have fits := solvent.fits
    unfold worth at owed fits
    have gold := solvent.gold
    have platinum := solvent.platinum
    have left : (amount - owned.crystal * 10000).toInt =
        amount.toInt - owned.crystal.toInt * 10000 := by
      have crystal := solvent.crystal
      rw [sub_exact, crystal_exact solvent] <;> rw [crystal_exact solvent] <;> omega
    have pays := rest_pays solvent owned.crystal (amount - owned.crystal * 10000)
      (by rw [left]; omega) (by rw [left]; omega) solvent.crystal (le_refl _)
    rw [left] at pays
    rwa [show owned.crystal.toInt * 10000 + (amount.toInt - owned.crystal.toInt * 10000) =
      amount.toInt by omega] at pays
  · have pays := rest_pays solvent (amount / 10000) (amount % 10000)
      (by rw [remainder]; omega) (by rw [remainder]; omega) (by rw [quotient]; omega)
      (by rw [quotient]; omega)
    rw [quotient, remainder] at pays
    rwa [show amount.toInt / 10000 * 10000 + amount.toInt % 10000 = amount.toInt by omega] at pays

/-- 250 gold pieces are paid with a crystal coin. -/
theorem crystal_coin_pays :
    Pays 250 ⟨3, 0, 1⟩ (calculateChange 250 ⟨3, 0, 1⟩) :=
  @change_pays ⟨3, 0, 1⟩ 250 ⟨by decide, by decide, by decide, by decide⟩ (by decide) (by decide)

end Payment

end TibiaGame.CoinChange
