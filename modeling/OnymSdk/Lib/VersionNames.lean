/-
  File:      OnymSdk/Lib/VersionNames.lean
  Subject:   FILE NAMES as the shell's patterns and `sort -V` see them.

  * `Glob`, `glob` -- shell patterns of literals, digits and `*`;
  * `parts`, `versionKey`, `versionLe` -- version order: a name falls into parts,
    each a non-digit text and a number; texts compare character by character with
    `~` first, then the end of the name, then letters, numbers by value; equal names in
    this sense compare bytewise. (Names with an alphabetic extension are compared
    without it at first; that rule is left out.)
  * `versionLe` is a linear order; `versionLe_numeric` -- on dotted numbers it is
    the numeric order.
-/
import Mathlib.Data.Char
import Mathlib.Data.List.Lex
import Mathlib.Data.Prod.Lex
import Mathlib.Data.Int.Order.Basic
import Mathlib.Tactic.Common

namespace VersionNames

/-! ## 1. Patterns -/

/-- One item of a shell pattern. -/
inductive Glob where
  | lit (c : Char)
  | digit
  | star
  deriving DecidableEq, Repr

/-- Match some prefix with `*`, the rest with `k`. -/
def globStar (k : List Char → Bool) : List Char → Bool
  | [] => k []
  | c :: cs => k (c :: cs) || globStar k cs

/-- Does the whole name match the pattern? -/
def glob : List Glob → List Char → Bool
  | [], cs => cs.isEmpty
  | .lit d :: ps, c :: cs => c = d && glob ps cs
  | .digit :: ps, c :: cs => c.isDigit && glob ps cs
  | .star :: ps, cs => globStar (glob ps) cs
  | _ :: _, [] => false

theorem globStar_append {k : List Char → Bool} {cs : List Char} (pre : List Char) (h : k cs = true) :
    globStar k (pre ++ cs) = true := by
  induction pre with
  | nil => cases cs <;> simp [globStar, h]
  | cons c pre ih => simp [globStar, ih]

/-! ## 2. Version order -/

/-- The rank of a non-digit character; the end of a text ranks 0. -/
def rank (c : Char) : Int :=
  if c = '~' then -1 else if c.isAlpha then c.toNat else c.toNat + 256

/-- A text, as ranks with the end, and the number that follows it. -/
abbrev Part := List Int ×ₗ Nat

/-- The end of a name, which ranks as the end of a text. -/
def stop : Part := toLex ([0], 0)

/-- The parts of a name: `text` is the text read so far, the number the one being read. -/
def parts (text : List Int) : Option Nat → List Char → List Part
  | none, [] => if text = [] then [stop] else [toLex (text ++ [0], 0), stop]
  | some n, [] => [toLex (text ++ [0], n), stop]
  | d, c :: cs =>
    if c.isDigit then parts text (some (10 * d.getD 0 + (c.toNat - 48))) cs
    else match d with
      | none => parts (text ++ [rank c]) none cs
      | some n => toLex (text ++ [0], n) :: parts [rank c] none cs

/-- What `sort -V` compares: the parts, and the name itself as the last resort. -/
def versionKey (s : String) : List Part ×ₗ List Char := toLex (parts [] none s.toList, s.toList)

/-- The order of `sort -V`. -/
def versionLe (a b : String) : Prop := versionKey a ≤ versionKey b

instance : DecidableRel versionLe := fun a b =>
  inferInstanceAs (Decidable (versionKey a ≤ versionKey b))

instance : IsTrans String versionLe :=
  ⟨fun _ _ _ => le_trans (α := List Part ×ₗ List Char)⟩

instance : Std.Total versionLe := ⟨fun a b => le_total (versionKey a) (versionKey b)⟩

instance : Std.Antisymm versionLe := ⟨fun a b h1 h2 => by
  have e := congrArg (fun k : List Part ×ₗ List Char => (ofLex k).2) (le_antisymm h1 h2)
  exact String.toList_inj.mp e⟩

/-! ## 3. Dotted numbers -/

/-- A nonempty string of decimal digits. -/
def IsNumeral (ds : List Char) : Prop := ds ≠ [] ∧ ∀ c ∈ ds, c.isDigit = true

instance (ds : List Char) : Decidable (IsNumeral ds) :=
  decidable_of_iff (ds ≠ [] ∧ ds.all Char.isDigit = true) (by simp [IsNumeral])

/-- Its value, on top of the digits read before. -/
def natFrom (n : Nat) (ds : List Char) : Nat := ds.foldl (fun n c => 10 * n + (c.toNat - 48)) n

/-- The value of a numeral. -/
def natOf (ds : List Char) : Nat := natFrom 0 ds

/-- Three numbers with dots between them. -/
def dotted (x y z : List Char) : List Char := x ++ '.' :: (y ++ '.' :: z)

theorem parts_digits {ds : List Char} (h : ∀ c ∈ ds, c.isDigit = true) (text : List Int) (n : Nat)
    (rest : List Char) :
    parts text (some n) (ds ++ rest) = parts text (some (natFrom n ds)) rest := by
  induction ds generalizing n with
  | nil => rfl
  | cons d ds ih =>
    have hd := h d List.mem_cons_self
    rw [List.cons_append, parts, if_pos hd, ih fun c hc => h c (List.mem_cons_of_mem _ hc)]
    rfl

/-- A numeral closes the text before it. -/
theorem parts_numeral {ds : List Char} (h : IsNumeral ds) (text : List Int) (rest : List Char) :
    parts text none (ds ++ rest) = parts text (some (natOf ds)) rest := by
  obtain ⟨hne, hd⟩ := h
  match ds, hne with
  | d :: ds, _ =>
    rw [List.cons_append, parts, if_pos (hd d List.mem_cons_self),
      parts_digits fun c hc => hd c (List.mem_cons_of_mem _ hc)]
    rfl

theorem parts_dot (text : List Int) (n : Nat) (cs : List Char) :
    parts text (some n) ('.' :: cs) = toLex (text ++ [0], n) :: parts [302] none cs := rfl

theorem parts_dotted {x y z : List Char} (hx : IsNumeral x) (hy : IsNumeral y) (hz : IsNumeral z) :
    parts [] none (dotted x y z) =
      [toLex ([0], natOf x), toLex ([302, 0], natOf y), toLex ([302, 0], natOf z), stop] := by
  have hend : parts [302] none z = [toLex ([302, 0], natOf z), stop] := by
    have e := parts_numeral hz [302] []
    rwa [List.append_nil] at e
  rw [dotted, parts_numeral hx, parts_dot, parts_numeral hy, parts_dot, hend]
  rfl

/-- The value of a dotted triple, compared component by component. -/
def numeric (x y z : List Char) : Nat ×ₗ Nat ×ₗ Nat := toLex (natOf x, toLex (natOf y, natOf z))

/-- Three parts with the same texts compare by their numbers. -/
theorem parts_le_iff {s t u : List Int} {a b c a' b' c' : Nat} :
    ([toLex (s, a), toLex (t, b), toLex (u, c), stop] : List Part) ≤
        [toLex (s, a'), toLex (t, b'), toLex (u, c'), stop] ↔
      a < a' ∨ a = a' ∧ (b < b' ∨ b = b' ∧ c ≤ c') := by
  rw [le_iff_lt_or_eq, List.cons_lt_cons_iff, List.cons_lt_cons_iff, List.cons_lt_cons_iff]
  simp only [Prod.Lex.toLex_lt_toLex, lt_self_iff_false, true_and, false_or,
    and_false, or_false, List.cons.injEq, EmbeddingLike.apply_eq_iff_eq, Prod.mk.injEq, and_true]
  omega

/-- **On dotted numbers version order is numeric order.** -/
theorem versionLe_numeric {x y z x' y' z' : List Char} (hx : IsNumeral x) (hy : IsNumeral y)
    (hz : IsNumeral z) (hx' : IsNumeral x') (hy' : IsNumeral y') (hz' : IsNumeral z')
    (h : versionLe (String.ofList (dotted x y z)) (String.ofList (dotted x' y' z'))) :
    numeric x y z ≤ numeric x' y' z' := by
  have h1 : parts [] none (dotted x y z) ≤ parts [] none (dotted x' y' z') := by
    have e := Prod.Lex.monotone_fst _ _ h
    simpa only [versionKey, ofLex_toLex, String.toList_ofList] using e
  rw [parts_dotted hx hy hz, parts_dotted hx' hy' hz', parts_le_iff] at h1
  simpa only [numeric, Prod.Lex.toLex_le_toLex] using h1

-- `~` makes a name older than the part before it.
example : versionLe "1.0.0~rc1" "1.0.0" ∧ ¬ versionLe "1.0.0-rc1" "1.0.0" := by decide

end VersionNames
