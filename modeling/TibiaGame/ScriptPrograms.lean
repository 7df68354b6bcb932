import TibiaGame.ScriptLayout

/-!
# Programs that read a script

What the reading functions give for the tokens that they expect.
-/

namespace TibiaGame.ScriptPrograms

open DynamicStrings ScriptFiles ScriptLayout

variable {Value Final : Type} {tokens others : List Token} {value : Value} {final : Final}
  {script after : ReadScriptFile}

def Parses (program : Reading Value) (tokens : List Token) (value : Value) : Prop :=
  ∀ script after, Reads tokens script after → program script = .ok (value, after)

theorem bind_apply (first : Reading Value) (next : Value → Reading Final)
    (script : ReadScriptFile) :
    (first >>= next) script = (first script).bind fun found => next found.1 found.2 := rfl

theorem parses_bind {first : Reading Value} {next : Value → Reading Final}
    (left : Parses first tokens value) (right : Parses (next value) others final) :
    Parses (first >>= next) (tokens ++ others) final := by
  intro script after reads
  rcases reads_split reads with ⟨middle, reads_first, reads_next⟩
  rw [bind_apply, left script middle reads_first]
  exact right middle after reads_next

theorem parses_token {token : Token} {rest : Unit → Reading Value}
    (further : ∀ script after, script.token = token → Reads tokens script after →
      rest () script = .ok (value, after)) : Parses (nextToken >>= rest) (token :: tokens) value := by
  intro script after reads
  rcases reads with ⟨next, reads, same, rest_reads⟩
  rw [bind_apply, reads]
  exact further next after same rest_reads

theorem parses_string (text : List UInt8) : Parses readString [.string text] (cString text) := by
  apply parses_token
  intro script after same reads
  rw [reads, getString, bind_apply, getToken]
  simp only [Except.bind, same]
  rfl

theorem parses_special (char : UInt8) : Parses readSpecial [.special char] char := by
  apply parses_token
  intro script after same reads
  rw [reads, getSpecial, bind_apply, getToken]
  simp only [Except.bind, same]
  rfl

theorem parses_symbol (symbol : UInt8) : Parses (readSymbol symbol) [.special symbol] () := by
  intro script after reads
  rw [readSymbol, bind_apply, parses_special symbol script after reads]
  simp only [Except.bind, ne_eq, not_true_eq_false, if_false]
  rfl

theorem get_number {number : Int32} (same : script.token = .number number) :
    getNumber script = .ok (number, script) := by
  rw [getNumber, bind_apply, getToken]
  simp only [Except.bind, same]
  rfl

theorem negated (number : Int32) (negative : number.toInt < 0) :
    -1 * Int32.ofNat number.toInt.natAbs = number := by
  have positive : (number.toInt.natAbs : Int) = -number.toInt := by omega
  rw [← Int32.ofInt_eq_ofNat, positive, Int32.ofInt_neg, Int32.ofInt_toInt, Int32.neg_mul,
    Int32.one_mul, Int32.neg_neg]

/-- Negative numbers are read as they were written, the smallest one too. -/
theorem parses_number (number : Int32) : Parses readNumber (Lexeme.number number).tokens number := by
  rw [Lexeme.tokens]
  split_ifs with negative
  · apply parses_token
    intro script after same reads
    rcases reads with ⟨next, reads, isNumber, ends⟩
    rw [bind_apply, getToken]
    simp only [Except.bind, same, if_true]
    rw [bind_apply, reads]
    simp only [Except.bind]
    rw [bind_apply, get_number isNumber, ends]
    simp only [Except.bind, negated number negative]
    rfl
  apply parses_token
  intro script after same reads
  have different : ¬ Token.number (Int32.ofNat number.toInt.natAbs) = .special minus := by rintro ⟨⟩
  rw [bind_apply, getToken]
  simp only [Except.bind, same, if_neg different]
  rw [bind_apply, get_number same, reads]
  simp only [Except.bind, Int32.one_mul, coordinate_value (Int.not_lt.mp negative)]
  rfl

end TibiaGame.ScriptPrograms
