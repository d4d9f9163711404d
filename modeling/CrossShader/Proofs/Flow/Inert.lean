import CrossShader.Proofs.Effects.Emission
import CrossShader.Proofs.Flow.Grammar
import Mathlib.Data.List.TakeWhile

/-!
# Inert texts

Why the texts of expressions and simple statements can stand as unread parts of statements, on all
built-in targets.

* `nest` — the parentheses that a text leaves open, if it has no semicolon, brace or outer comma.
* `Solid`, `Inert` — texts that are balanced and have no white space at their ends, and those that do not
  start with a word of the statement grammar either.
* `InertForms` — what lowering asks of a dialect; `Target.inertForms` — the built-in targets do it.
* `inert_lower`, `inert_simple` — the texts of expressions and of simple statements are inert.
-/

set_option autoImplicit false

namespace CrossShader

open Reader Text

namespace Flow

/-! ## Balanced texts -/

/-- The open parentheses behind a text, where `depth` were open before.  A semicolon, a brace and a comma
outside of parentheses have no place. -/
def nest (depth : Nat) : List Char → Option Nat
  | [] => some depth
  | c :: cs =>
    if c = '(' then nest (depth + 1) cs
    else if c = ')' then if depth = 0 then none else nest (depth - 1) cs
    else if c = ';' ∨ c = '\x7b' ∨ c = '\x7d' ∨ c = ',' ∧ depth = 0 then none
    else nest depth cs

/-- **One character of a balanced text:** it opens a parenthesis, closes one that is open, or is neither
and has a place here. -/
theorem nest_cons {c : Char} {cs : List Char} {depth depth' : Nat}
    (h : nest depth (c :: cs) = some depth') :
    c = '(' ∧ nest (depth + 1) cs = some depth' ∨
      (c = ')' ∧ ∃ outer, depth = outer + 1 ∧ nest outer cs = some depth') ∨
      c ≠ '(' ∧ c ≠ ')' ∧ ¬(c = ';' ∨ c = '\x7b' ∨ c = '\x7d' ∨ c = ',' ∧ depth = 0) ∧
        nest depth cs = some depth' := by
  rw [nest] at h
  by_cases hopen : c = '('
  · rw [if_pos hopen] at h
    exact .inl ⟨hopen, h⟩
  rw [if_neg hopen] at h
  by_cases hclose : c = ')'
  · rw [if_pos hclose] at h
    cases depth with
    | zero => cases h
    | succ outer => exact .inr (.inl ⟨hclose, outer, rfl, h⟩)
  rw [if_neg hclose] at h
  split at h
  · cases h
  · rename_i hother
    exact .inr (.inr ⟨hopen, hclose, hother, h⟩)

theorem nest_append {cs ds : List Char} {depth depth' : Nat} (h : nest depth cs = some depth') :
    nest depth (cs ++ ds) = nest depth' ds := by
  induction cs generalizing depth with
  | nil =>
    cases h
    rfl
  | cons c cs ih =>
    obtain ⟨rfl, hcs⟩ | ⟨rfl, outer, rfl, hcs⟩ | ⟨hopen, hclose, hother, hcs⟩ := nest_cons h
    · exact ih hcs
    · exact ih hcs
    · rw [List.cons_append, nest, if_neg hopen, if_neg hclose, if_neg hother]
      exact ih hcs

/-- A character without a meaning in balanced texts. -/
def isOrdinary (c : Char) : Bool := !(['(', ')', ';', '\x7b', '\x7d', ','].contains c)

theorem nest_ordinary {cs : List Char} (h : cs.all isOrdinary = true) (depth : Nat) :
    nest depth cs = some depth := by
  induction cs with
  | nil => rfl
  | cons c cs ih =>
    rw [List.all_cons, Bool.and_eq_true] at h
    have hc := h.1
    simp only [isOrdinary, List.contains_cons, List.contains_nil, Bool.or_false, Bool.not_eq_true',
      Bool.or_eq_false_iff, beq_eq_false_iff_ne] at hc
    simp only [nest, hc, if_false, false_and, or_false, ih h.2]

theorem isOrdinary_of_isWordChar {c : Char} (h : isWordChar c = true) : isOrdinary c = true := by
  by_contra hc
  simp only [isOrdinary, List.contains_cons, List.contains_nil, Bool.or_false, Bool.not_eq_true',
    Bool.not_eq_false, Bool.or_eq_true, beq_iff_eq] at hc
  rcases hc with rfl | rfl | rfl | rfl | rfl | rfl <;> revert h <;> decide

theorem isBlank_eq_false_of_isWordChar {c : Char} (h : isWordChar c = true) : isBlank c = false := by
  rw [isWordChar, Bool.or_eq_true, beq_iff_eq] at h
  rcases h with h | rfl
  · have hletter : ((decide (c.val ≥ 'A'.val ∧ c.val ≤ 'Z'.val) ||
        decide (c.val ≥ 'a'.val) && decide (c.val ≤ 'z'.val)) ||
        decide (c.val ≥ '0'.val) && decide (c.val ≤ '9'.val)) = true := h
    simp only [Bool.or_eq_true, Bool.and_eq_true, decide_eq_true_eq, ge_iff_le,
      UInt32.le_iff_toNat_le] at hletter
    have hvalue : c.toNat = c.val.toNat := rfl
    have hbounds : 48 ≤ c.toNat ∧ c.toNat ≤ 122 := by
      have hzero : '0'.val.toNat = 48 := rfl
      have hnine : '9'.val.toNat = 57 := rfl
      have hupper : 'A'.val.toNat = 65 := rfl
      have hupper' : 'Z'.val.toNat = 90 := rfl
      have hlower : 'a'.val.toNat = 97 := rfl
      have hlower' : 'z'.val.toNat = 122 := rfl
      omega
    simp only [isBlank, blankRanges, List.any_cons, List.any_nil, Bool.or_false, Bool.or_eq_false_iff,
      decide_eq_false_iff_not]
    omega
  · rfl

/-- A text that closes all its parentheses. -/
def Balanced (text : String) : Prop := ∀ depth, nest depth text.toList = some depth

theorem Balanced.append {a b : String} (ha : Balanced a) (hb : Balanced b) : Balanced (a ++ b) := by
  intro depth
  rw [String.toList_append, nest_append (ha depth)]
  exact hb depth

theorem balanced_ordinary {text : String} (h : text.toList.all isOrdinary = true) : Balanced text :=
  nest_ordinary h

theorem balanced_word {name : String} (h : IsIdentifier name) : Balanced name :=
  balanced_ordinary (List.all_eq_true.2 fun c hc =>
    isOrdinary_of_isWordChar (List.all_eq_true.1 (isIdentifier_iff.1 h).all c hc))

/-- Parentheses around a text in which commas may stand between balanced ones. -/
theorem balanced_parens {text : String} (h : ∀ depth, nest (depth + 1) text.toList = some (depth + 1)) :
    Balanced ("(" ++ text ++ ")") := by
  intro depth
  rw [String.append_assoc, String.toList_append]
  change nest (depth + 1) (text ++ ")").toList = _
  rw [String.toList_append, nest_append (h depth)]
  rfl

theorem nest_arguments {texts : List String} (h : ∀ text ∈ texts, Balanced text) (depth : Nat) :
    nest (depth + 1) (String.intercalate ", " texts).toList = some (depth + 1) := by
  induction texts with
  | nil => rfl
  | cons text texts ih =>
    have hfirst := h text List.mem_cons_self (depth + 1)
    cases texts with
    | nil => exact hfirst
    | cons next rest =>
      rw [String.intercalate_cons_cons, String.append_assoc, String.toList_append, nest_append hfirst,
        String.toList_append]
      exact ih fun t ht => h t (List.mem_cons_of_mem _ ht)

/-! ## Solid and inert texts -/

/-- The words with a meaning in the statement grammar. -/
def controlWords : List String := roles.map Prod.fst ++ ["break", "continue", "discard"]

/-- The word that a text starts with; empty if it starts with no word. -/
def leadingWord (text : String) : String := String.ofList (text.toList.takeWhile isWordChar)

/-- A balanced text without white space at its ends. -/
structure Solid (text : String) : Prop where
  balanced : Balanced text
  first : ∃ c cs, text.toList = c :: cs ∧ isBlank c = false
  last : ∃ cs c, text.toList = cs ++ [c] ∧ isBlank c = false

/-- A solid text that does not start with a word of the statement grammar. -/
structure Inert (text : String) : Prop extends Solid text where
  leading : leadingWord text ∉ controlWords

/-- What may follow the first part of a solid text: it does not make the first word longer. -/
structure Tail (text : String) : Prop where
  balanced : Balanced text
  apart : ∃ c cs, text.toList = c :: cs ∧ isWordChar c = false
  last : ∃ cs c, text.toList = cs ++ [c] ∧ isBlank c = false

theorem leadingWord_append {a b : String} (hb : ∃ c cs, b.toList = c :: cs ∧ isWordChar c = false) :
    leadingWord (a ++ b) = leadingWord a := by
  obtain ⟨c, cs, hcs, hc⟩ := hb
  rw [leadingWord, leadingWord, String.toList_append, hcs, List.takeWhile_append]
  split
  · rename_i hall
    rw [List.takeWhile_cons_of_neg (by simp [hc]), List.append_nil,
      (List.takeWhile_prefix _).eq_of_length hall]
  · rfl

theorem Solid.append {a b : String} (ha : Solid a) (hb : Tail b) : Solid (a ++ b) := by
  obtain ⟨c, cs, hfirst, hc⟩ := ha.first
  obtain ⟨ds, d, hlast, hd⟩ := hb.last
  refine ⟨ha.balanced.append hb.balanced, ⟨c, cs ++ b.toList, ?_, hc⟩, ⟨a.toList ++ ds, d, ?_, hd⟩⟩
  · rw [String.toList_append, hfirst, List.cons_append]
  · rw [String.toList_append, hlast, List.append_assoc]

theorem Inert.append {a b : String} (ha : Inert a) (hb : Tail b) : Inert (a ++ b) :=
  ⟨ha.toSolid.append hb, by
    rw [leadingWord_append hb.apart]
    exact ha.leading⟩

/-- A solid text that starts with a mark is inert. -/
theorem Solid.inert {text : String} (h : Solid text)
    (hmark : ∃ c cs, text.toList = c :: cs ∧ isWordChar c = false) : Inert text := by
  obtain ⟨c, cs, hcs, hc⟩ := hmark
  refine ⟨h, ?_⟩
  rw [leadingWord, hcs, List.takeWhile_cons_of_neg (by simp [hc])]
  decide

/-- A mark between the parts of a text. -/
def isJoint (mark : String) : Bool :=
  mark.toList.all isOrdinary && mark.toList.head?.any fun c => !isWordChar c

theorem isJoint_apart {mark : String} (h : isJoint mark = true) :
    ∃ c cs, mark.toList = c :: cs ∧ isWordChar c = false := by
  rw [isJoint, Bool.and_eq_true] at h
  obtain ⟨c, hc, hmark⟩ := (Option.any_eq_true _ _).1 h.2
  obtain ⟨cs, hcs⟩ := List.head?_eq_some_iff.1 hc
  exact ⟨c, cs, hcs, by simpa using hmark⟩

theorem isJoint_balanced {mark : String} (h : isJoint mark = true) : Balanced mark := by
  rw [isJoint, Bool.and_eq_true] at h
  exact balanced_ordinary h.1

/-- A mark and a text behind it. -/
theorem Solid.behind {mark text : String} (h : Solid text) (hmark : isJoint mark = true) :
    Tail (mark ++ text) := by
  obtain ⟨c, cs, hcs, hc⟩ := isJoint_apart hmark
  obtain ⟨ds, d, hlast, hd⟩ := h.last
  refine ⟨(isJoint_balanced hmark).append h.balanced, ⟨c, cs ++ text.toList, ?_, hc⟩,
    ⟨mark.toList ++ ds, d, ?_, hd⟩⟩
  · rw [String.toList_append, hcs, List.cons_append]
  · rw [String.toList_append, hlast, List.append_assoc]

/-! ## The forms of texts -/

/-- A name that no statement starts with for another reason. -/
def FreeWord (name : String) : Prop := IsIdentifier name ∧ name ∉ controlWords

instance (name : String) : Decidable (FreeWord name) :=
  inferInstanceAs (Decidable (IsIdentifier name ∧ name ∉ controlWords))

/-- A character of a number. -/
def isNumberChar (c : Char) : Bool := isWordChar c || c == '.' || c == '-'

/-- A text that starts with a digit and has characters of numbers only. -/
def Numeric (text : String) : Prop :=
  text.toList.head?.any Char.isDigit = true ∧ text.toList.all isNumberChar = true

instance (text : String) : Decidable (Numeric text) :=
  inferInstanceAs (Decidable (_ ∧ _))

theorem isNumberChar_of_isWordChar {c : Char} (h : isWordChar c = true) : isNumberChar c = true := by
  rw [isNumberChar, h]
  rfl

theorem isNumberChar_cases {c : Char} (h : isNumberChar c = true) :
    isWordChar c = true ∨ c = '.' ∨ c = '-' := by
  simpa [isNumberChar, or_assoc] using h

theorem isBlank_eq_false_of_isNumberChar {c : Char} (h : isNumberChar c = true) : isBlank c = false := by
  rcases isNumberChar_cases h with hword | rfl | rfl
  · exact isBlank_eq_false_of_isWordChar hword
  · rfl
  · rfl

theorem solid_of_all {text : String} (hne : text.toList ≠ []) (h : text.toList.all isNumberChar = true) :
    Solid text := by
  rw [List.all_eq_true] at h
  have hordinary : ∀ c ∈ text.toList, isOrdinary c = true := by
    intro c hc
    rcases isNumberChar_cases (h c hc) with hword | rfl | rfl
    · exact isOrdinary_of_isWordChar hword
    · rfl
    · rfl
  have hblank : ∀ c ∈ text.toList, isBlank c = false :=
    fun c hc => isBlank_eq_false_of_isNumberChar (h c hc)
  obtain ⟨c, cs, hcs⟩ := List.exists_cons_of_ne_nil hne
  refine ⟨balanced_ordinary (List.all_eq_true.2 hordinary),
    ⟨c, cs, hcs, hblank c (hcs ▸ List.mem_cons_self)⟩,
    ⟨_, _, (List.dropLast_concat_getLast hne).symm, hblank _ (List.getLast_mem hne)⟩⟩

theorem solid_word {name : String} (h : IsIdentifier name) : Solid name := by
  have hword := isIdentifier_iff.1 h
  refine solid_of_all ?_ (List.all_eq_true.2 fun c hc =>
    isNumberChar_of_isWordChar (List.all_eq_true.1 hword.all c hc))
  obtain ⟨c, cs, hcs, -⟩ := hword
  rw [hcs]
  nofun

theorem Inert.word {name : String} (h : FreeWord name) : Inert name := by
  refine ⟨solid_word h.1, ?_⟩
  have hall := List.all_eq_true.1 (isIdentifier_iff.1 h.1).all
  rw [leadingWord, List.takeWhile_eq_self_iff.2 hall, String.ofList_toList]
  exact h.2

theorem Inert.number {text : String} (h : Numeric text) : Inert text := by
  obtain ⟨d, hhead, hd⟩ := (Option.any_eq_true _ _).1 h.1
  obtain ⟨cs, htext⟩ := List.head?_eq_some_iff.1 hhead
  refine ⟨solid_of_all (by rw [htext]; nofun) h.2, fun hmem => ?_⟩
  -- no word of the grammar starts with a digit
  have hnone : controlWords.all (fun word => word.toList.head?.all fun c => !c.isDigit) = true := by
    decide
  have hword := List.all_eq_true.1 hnone _ hmem
  rw [leadingWord, htext, List.takeWhile_cons_of_pos (isWordChar_of_isDigit hd)] at hword
  simp [hd] at hword

theorem solid_group {text : String} (h : ∀ depth, nest (depth + 1) text.toList = some (depth + 1)) :
    Solid ("(" ++ text ++ ")") := by
  refine ⟨balanced_parens h, ⟨'(', (text ++ ")").toList, ?_, rfl⟩, ⟨("(" ++ text).toList, ')', ?_, rfl⟩⟩
  · rw [String.append_assoc, String.toList_append]
    rfl
  · rw [String.toList_append]
    rfl

theorem tail_arguments {texts : List String} (h : ∀ text ∈ texts, Solid text) :
    Tail ("(" ++ String.intercalate ", " texts ++ ")") := by
  have hgroup := solid_group (nest_arguments fun text ht => (h text ht).balanced)
  refine ⟨hgroup.balanced, ⟨'(', (String.intercalate ", " texts ++ ")").toList, ?_, rfl⟩, hgroup.last⟩
  rw [String.append_assoc, String.toList_append]
  rfl

namespace Inert

variable {a b c text name type : String} {texts : List String}

theorem group (h : Inert text) : Inert ("(" ++ text ++ ")") := by
  refine (solid_group fun depth => h.balanced (depth + 1)).inert ⟨'(', (text ++ ")").toList, ?_, rfl⟩
  rw [String.append_assoc, String.toList_append]
  rfl

theorem operand (h : Inert text) (compound : Bool) : Inert (parenthesize compound text) := by
  cases compound with
  | false => exact h
  | true => exact h.group

/-- The default value of a type, written as a cast. -/
theorem zero (h : IsIdentifier type) : Inert ("(" ++ type ++ ")0") := by
  have hclose : ")0" = ")" ++ "0" := rfl
  have hzero : Balanced "0" := balanced_ordinary rfl
  have htext : "(" ++ type ++ ")0" = "(" ++ type ++ ")" ++ "0" := by
    rw [hclose, String.append_assoc, String.append_assoc, String.append_assoc]
  have hfirst : ("(" ++ type ++ ")0").toList = '(' :: (type ++ ")0").toList := by
    rw [String.append_assoc, String.toList_append]
    rfl
  refine Solid.inert ⟨?_, ⟨_, _, hfirst, rfl⟩, ⟨("(" ++ type ++ ")").toList, '0', ?_, rfl⟩⟩ ⟨_, _, hfirst, rfl⟩
  · rw [htext]
    exact (balanced_parens fun depth => balanced_word h (depth + 1)).append hzero
  · rw [htext, String.toList_append]
    rfl

theorem unary (h : Inert text) (op : UnaryOp) : Inert (op.apply text) := by
  cases hfollows : op.followsOperand with
  | true =>
    have htail : Tail op.token := by
      cases op <;> first
        | exact absurd hfollows (by decide)
        | exact ⟨balanced_ordinary rfl, ⟨_, _, rfl, rfl⟩, ⟨[_], _, rfl, rfl⟩⟩
    rw [UnaryOp.apply, if_pos hfollows]
    exact h.append htail
  | false =>
    have hjoint : isJoint op.token = true := by cases op <;> rfl
    have htail := h.behind hjoint
    rw [UnaryOp.apply, if_neg (by simp [hfollows])]
    refine Solid.inert ⟨htail.balanced, ?_, htail.last⟩ htail.apart
    have hfirst : op.token.toList.head?.any (fun c => !isBlank c) = true := by cases op <;> rfl
    obtain ⟨c, hc, hblank⟩ := (Option.any_eq_true _ _).1 hfirst
    obtain ⟨cs, hcs⟩ := List.head?_eq_some_iff.1 hc
    refine ⟨c, cs ++ text.toList, ?_, by simpa using hblank⟩
    rw [String.toList_append, hcs, List.cons_append]

theorem binary (ha : Inert a) (hb : Inert b) (op : BinaryOp) : Inert (op.apply a b) := by
  have hjoint : isJoint (" " ++ op.token ++ " ") = true := by cases op <;> rfl
  have htext : op.apply a b = a ++ (" " ++ op.token ++ " " ++ b) := by
    change a ++ " " ++ op.token ++ " " ++ b = _
    simp only [String.append_assoc]
  rw [htext]
  exact ha.append (hb.behind hjoint)

theorem conditional (hc : Inert c) (ha : Inert a) (hb : Inert b) : Inert (conditionalText c a b) := by
  have htext : conditionalText c a b = c ++ (" ? " ++ a) ++ (" : " ++ b) := by
    change c ++ " ? " ++ a ++ " : " ++ b = _
    simp only [String.append_assoc]
  have hquestion : isJoint " ? " = true := by decide
  have hcolon : isJoint " : " = true := by decide
  rw [htext]
  exact (hc.append (ha.behind hquestion)).append (hb.behind hcolon)

theorem member (h : Inert text) (hname : IsIdentifier name) : Inert (text ++ "." ++ name) := by
  have hdot : isJoint "." = true := by decide
  rw [String.append_assoc]
  exact h.append ((solid_word hname).behind hdot)

theorem index (ha : Inert a) (hb : Inert b) : Inert (a ++ "[" ++ b ++ "]") := by
  have hopen : isJoint "[" = true := by decide
  have hclose : Tail "]" := ⟨balanced_ordinary rfl, ⟨']', [], rfl, rfl⟩, ⟨[], ']', rfl, rfl⟩⟩
  have hwhole := (ha.append (hb.behind hopen)).append hclose
  rwa [← String.append_assoc] at hwhole

theorem call (hname : FreeWord name) (h : ∀ text ∈ texts, Inert text) : Inert (callText name texts) := by
  have htail := tail_arguments fun text ht => (h text ht).toSolid
  have hwhole := (Inert.word hname).append htail
  rwa [← String.append_assoc, ← String.append_assoc] at hwhole

theorem method (h : Inert text) (hname : IsIdentifier name) (htexts : ∀ text ∈ texts, Inert text) :
    Inert (text ++ "." ++ callText name texts) := by
  have htail := tail_arguments fun text ht => (htexts text ht).toSolid
  have hwhole := (h.member hname).append htail
  have htext : text ++ "." ++ callText name texts =
      text ++ "." ++ name ++ ("(" ++ String.intercalate ", " texts ++ ")") := by
    simp only [callText, String.append_assoc]
  rwa [← htext] at hwhole

end Inert

theorem numeric_of_isDecimal {text : String} (h : IsDecimal text) : Numeric text := by
  obtain ⟨whole, fraction, exponent, htext, hwhole, hfraction, hexponent⟩ := h
  obtain ⟨d, ds, rfl⟩ := List.exists_cons_of_ne_nil hwhole.1
  have hdigits : ∀ {cs : List Char}, (∀ c ∈ cs, c.isDigit = true) → cs.all isNumberChar = true :=
    fun hcs => List.all_eq_true.2 fun c hc =>
      isNumberChar_of_isWordChar (isWordChar_of_isDigit (hcs c hc))
  have hfraction : fraction.all isNumberChar = true := by
    rcases hfraction with rfl | ⟨fs, rfl, hfs⟩
    · rfl
    · rw [List.all_cons, hdigits hfs]
      rfl
  have hexponent : exponent.all isNumberChar = true := by
    rcases hexponent with rfl | ⟨es, hes, rfl | rfl⟩
    · rfl
    · rw [List.all_cons, hdigits hes.2]
      rfl
    · rw [List.all_cons, List.all_cons, hdigits hes.2]
      rfl
  refine ⟨?_, ?_⟩
  · rw [htext]
    exact hwhole.2 d List.mem_cons_self
  · rw [htext, List.all_append, List.all_append, hfraction, hexponent, hdigits hwhole.2]
    rfl

theorem numeric_unsigned (n : Nat) : Numeric (toString n ++ "u") := by
  obtain ⟨hfirst, hall⟩ := numeric_of_isDecimal (isDecimal_natural n)
  obtain ⟨d, hhead, hd⟩ := (Option.any_eq_true _ _).1 hfirst
  rw [Numeric, String.toList_append, List.head?_append, hhead, List.all_append, hall]
  exact ⟨hd, rfl⟩

namespace Inert

theorem natural (n : Nat) : Inert (toString n) := .number (numeric_of_isDecimal (isDecimal_natural n))

/-- An element count in brackets. -/
theorem counted {text : String} (h : Inert text) (count : Nat) : Inert (text ++ countSuffix count) := by
  unfold countSuffix
  split
  · have hindex := h.index (.natural count)
    have htext : text ++ ("[" ++ toString count ++ "]") = text ++ "[" ++ toString count ++ "]" := by
      simp only [String.append_assoc]
    rw [← htext] at hindex
    exact hindex
  · rw [String.append_empty]
    exact h

/-- A call of an array type. -/
theorem arrayCall {element : String} (helement : FreeWord element) (count : Nat) {texts : List String}
    (h : ∀ text ∈ texts, Inert text) :
    Inert (callText (element ++ "[" ++ toString count ++ "]") texts) := by
  have hindex := (Inert.word helement).index (.natural count)
  have hwhole := hindex.append (tail_arguments fun text ht => (h text ht).toSolid)
  rwa [← String.append_assoc, ← String.append_assoc] at hwhole

/-- A number behind its sign. -/
theorem signed {text : String} (h : IsDecimal text) (negative : Bool) :
    Inert ((if negative then "-" else "") ++ text) := by
  have hnumber := Inert.number (numeric_of_isDecimal h)
  cases negative with
  | false =>
    rw [if_neg Bool.false_ne_true, String.empty_append]
    exact hnumber
  | true => exact hnumber.unary .negate

end Inert

theorem inert_literal {loc : Location} {value : Literal} {text : String}
    (h : value.lower loc = .ok text) : Inert text := by
  cases value with
  | bool value =>
    cases h
    have hword : FreeWord (toString value) := by cases value <;> decide
    exact .word hword
  | int value =>
    cases h
    cases value with
    | ofNat n => exact .natural n
    | negSucc n => exact .signed (isDecimal_natural (n + 1)) true
  | uint value =>
    cases h
    exact .number (numeric_unsigned value)
  | float value =>
    simp only [Literal.lower] at h
    split at h
    · rename_i hfinite
      cases h
      rw [Single.text_of_isFinite hfinite]
      exact .signed (isDecimal_literal value.shortest) value.isNegative
    · cases h

end Flow

open CrossShader.Flow

/-! ## Dialects -/

/-- What lowering asks of a dialect. -/
structure InertForms (d : Dialect) : Prop where
  correct {name : String} : IsIdentifier name → FreeWord (d.correct name)
  type {name mapped : String} : d.mapType name = some mapped → FreeWord mapped
  structureType {name : String} :
    IsIdentifier (flattenDots name) → FreeWord (d.structureTypeName name)
  member {type name target : String} : d.mapMember type name = some target → IsIdentifier target
  static {type name text : String} : d.identifiers.static? type name = some text → Inert text
  resource {r : Resource} : IsIdentifier r.name → FreeWord (d.resourceReference r)
  zero {type : String} {isStructure : Bool} {text : String} : FreeWord type →
    d.zeroValue type isStructure = some text → Inert text
  construct {type : String} {isStructure : Bool} {arguments : List String} {text : String} :
    d.construct type isStructure arguments = some text → text = callText type arguments
  remainder {a b : String} : Inert a → Inert b → Inert (d.floatRemainder a b)
  call {function : String} {form : Intrinsic} {arguments : List Argument} {text : String} :
    d.intrinsics.get? function = some form → (∀ a ∈ arguments, Inert a.text) →
    form.apply arguments = some text → Inert text

/-- **A corrected name is free**, if all words of the statement grammar are reserved. -/
theorem freeWord_correct {ids : Identifiers}
    (hreserved : controlWords.all (fun word => ids.isReserved (stem word)) = true) {name : String}
    (h : IsIdentifier name) : FreeWord (ids.correct name) := by
  refine ⟨isIdentifier_correct ids h, fun hmem => ?_⟩
  unfold Identifiers.correct at hmem
  split at hmem
  · have hlast : (name ++ "_").toList.getLast? = some '_' := by
      rw [String.toList_append]
      exact List.getLast?_concat
    have hnone : controlWords.all (fun word => word.toList.getLast? != some '_') = true := by decide
    have hword := List.all_eq_true.1 hnone _ hmem
    rw [hlast] at hword
    cases hword
  · rename_i hfree
    exact hfree (List.all_eq_true.1 hreserved _ hmem)

/-- The words of a table that has none of the statement grammar are free. -/
theorem freeWord_of_all {words : List String}
    (hwords : words.all (fun word => !controlWords.contains word) = true) {word : String}
    (hmem : word ∈ words) (h : IsIdentifier word) : FreeWord word := by
  refine ⟨h, fun hcontrol => ?_⟩
  have hword := List.all_eq_true.1 hwords word hmem
  rw [List.contains_iff_mem.2 hcontrol] at hword
  cases hword

theorem inert_rename {target : String} (h : FreeWord target) {arguments : List Argument}
    {text : String} (harguments : ∀ a ∈ arguments, Inert a.text)
    (happly : (Intrinsic.rename target).apply arguments = some text) : Inert text := by
  obtain rfl := Option.some.inj happly
  refine .call h fun text htext => ?_
  obtain ⟨a, ha, rfl⟩ := List.mem_map.1 htext
  exact harguments a ha

/-- A type's constructor with numbers. -/
theorem inert_constant (type : String) (values : List String) (htype : FreeWord type)
    (hvalues : ∀ value ∈ values, Numeric value) : Inert (callText type values) :=
  .call htype fun value hvalue => .number (hvalues value hvalue)

/-- A renamed library function has a free name. -/
theorem freeWord_rename {table : Table String Intrinsic}
    (htable : (table.entries.filterMap (·.2.target?)).all
      (fun word => !controlWords.contains word) = true) {function target : String}
    (h : table.get? function = some (.rename target)) (htarget : IsIdentifier target) :
    FreeWord target :=
  freeWord_of_all htable (List.mem_filterMap.2 ⟨_, Table.mem_of_get? h, rfl⟩) htarget

namespace Glsl

theorem controlWords_reserved :
    controlWords.all (fun word => identifiers.isReserved (stem word)) = true := by
  decide +kernel

theorem freeWord_blockMember {r : Resource} (h : IsIdentifier r.name) : FreeWord (blockMember r) := by
  refine ⟨(isName_blockMember h).1, fun hmem => ?_⟩
  have hnone : controlWords.all (fun word => !("field_".toList).isPrefixOf word.toList) = true := by
    decide
  have hword := List.all_eq_true.1 hnone _ hmem
  have htext : (blockMember r).toList = "field_".toList ++ r.name.toList := String.toList_append
  rw [htext, List.isPrefixOf_iff_prefix.2 (List.prefix_append _ _)] at hword
  cases hword

theorem inert_static {type name text : String} (h : identifiers.static? type name = some text) :
    Inert text := by
  have hall : ∀ entry ∈ identifiers.statics.entries, Inert entry.2 := by
    simp only [identifiers, List.forall_mem_cons]
    exact ⟨inert_constant "vec2" ["0.0"] (by decide) (by decide),
      inert_constant "vec2" ["1.0"] (by decide) (by decide),
      inert_constant "vec3" ["0.0"] (by decide) (by decide),
      inert_constant "vec3" ["1.0"] (by decide) (by decide),
      inert_constant "vec4" ["0.0"] (by decide) (by decide),
      inert_constant "vec4" ["1.0"] (by decide) (by decide),
      inert_constant "mat4" ["1.0"] (by decide) (by decide),
      .number (by decide), .number (by decide), List.forall_mem_nil _⟩
  exact hall _ (Table.mem_of_get? h)

theorem inert_sample {version : Version} {arguments : List Argument} {text : String}
    (harguments : ∀ a ∈ arguments, Inert a.text)
    (h : (if version.separateSamplers then sampleSeparate else sampleCombined).apply arguments =
      some text) : Inert text := by
  have htexture : FreeWord "texture" := by decide
  split at h
  · obtain ⟨a, b, c, combined, rfl, hcombined, rfl⟩ := sampleSeparate_ok h
    obtain ⟨hname, hword⟩ := combinedType_of_some hcombined
    have hforms : formWords.all (fun word => !controlWords.contains word) = true := by decide
    have hfree : FreeWord combined := freeWord_of_all hforms (hname ▸ combinedType_mem _) hword.1
    simp only [List.forall_mem_cons] at harguments
    obtain ⟨ha, hb, hc, -⟩ := harguments
    have hsampler : Inert (callText combined [a.text, b.text]) := by
      refine .call hfree ?_
      simp only [List.forall_mem_cons]
      exact ⟨ha, hb, nofun⟩
    refine .call htexture ?_
    simp only [List.forall_mem_cons]
    exact ⟨hsampler, hc, nofun⟩
  · obtain ⟨a, b, c, rfl, rfl⟩ := sampleCombined_ok h
    simp only [List.forall_mem_cons] at harguments
    obtain ⟨ha, -, hc, -⟩ := harguments
    refine .call htexture ?_
    simp only [List.forall_mem_cons]
    exact ⟨ha, hc, nofun⟩

theorem inertForms (version : Version) : InertForms (dialect version) where
  correct h := by
    rw [dialect_correct]
    exact freeWord_correct controlWords_reserved h
  type {name mapped} h := by
    have hwords : ((types version).entries.map (·.2)).all (fun word => !controlWords.contains word) =
        true := by
      cases version <;> decide
    exact freeWord_of_all hwords (List.mem_map_of_mem (Table.mem_of_get? h)) (isName_types h).1
  structureType h := by
    rw [dialect_structureTypeName]
    exact freeWord_correct controlWords_reserved h
  member h := isIdentifier_member h
  static h := inert_static h
  resource h := by
    rw [dialect_resourceReference]
    split
    · exact freeWord_blockMember h
    · exact freeWord_correct controlWords_reserved h
  zero {type isStructure text} htype h := by
    cases isStructure with
    | true => cases h
    | false =>
      rw [dialect_zeroValue] at h
      obtain rfl := Option.some.inj h
      exact .call htype (List.forall_mem_singleton.2 (.natural 0))
  construct h := (Option.some.inj h).symm
  remainder ha hb := by
    rw [dialect_floatRemainder]
    have htrunc : FreeWord "trunc" := by decide
    have hwhole : Inert (callText "trunc" [_]) :=
      .call htrunc (List.forall_mem_singleton.2 (ha.binary hb .divide))
    exact ha.binary (hb.binary hwhole .multiply) .subtract
  call {function form arguments text} hform harguments h := by
    rcases intrinsics_cases hform with ⟨target, rfl, htarget⟩ | ⟨rfl, rfl⟩ | ⟨rfl, rfl⟩ | ⟨rfl, rfl⟩
    · have hwords : ((intrinsics version).entries.filterMap (·.2.target?)).all
          (fun word => !controlWords.contains word) = true := by
        cases version <;> decide +kernel
      exact inert_rename (freeWord_rename hwords hform htarget.1) harguments h
    · obtain ⟨a, b, rfl, rfl⟩ := product_ok h
      simp only [List.forall_mem_cons] at harguments
      obtain ⟨ha, hb, -⟩ := harguments
      exact ((ha.operand _).binary (hb.operand _) .multiply).group
    · obtain ⟨x, rfl, rfl⟩ := saturate_ok h
      have hclamp : FreeWord "clamp" := by decide
      have hzero : Inert "0.0" := .number (by decide)
      have hone : Inert "1.0" := .number (by decide)
      simp only [List.forall_mem_cons] at harguments
      exact .call hclamp (by simp only [List.forall_mem_cons]; exact ⟨harguments.1, hzero, hone, nofun⟩)
    · exact inert_sample harguments h

end Glsl

namespace Hlsl

theorem controlWords_reserved :
    controlWords.all (fun word => identifiers.isReserved (stem word)) = true := by
  decide +kernel

theorem inert_static {type name text : String} (h : identifiers.static? type name = some text) :
    Inert text := by
  have hall : ∀ entry ∈ identifiers.statics.entries, Inert entry.2 := by
    simp only [identifiers, List.forall_mem_cons]
    exact ⟨inert_constant "float2" ["0.0", "0.0"] (by decide) (by decide),
      inert_constant "float2" ["1.0", "1.0"] (by decide) (by decide),
      inert_constant "float3" ["0.0", "0.0", "0.0"] (by decide) (by decide),
      inert_constant "float3" ["1.0", "1.0", "1.0"] (by decide) (by decide),
      inert_constant "float4" ["0.0", "0.0", "0.0", "0.0"] (by decide) (by decide),
      inert_constant "float4" ["1.0", "1.0", "1.0", "1.0"] (by decide) (by decide),
      inert_constant "float4x4" ["1", "0", "0", "0", "0", "1", "0", "0", "0", "0", "1", "0", "0", "0",
        "0", "1"] (by decide) (by decide),
      .number (by decide), .number (by decide), List.forall_mem_nil _⟩
  exact hall _ (Table.mem_of_get? h)

theorem inertForms : InertForms dialect where
  correct h := by
    rw [dialect_correct]
    exact freeWord_correct controlWords_reserved h
  type {name mapped} h := by
    have hidentifiers : ∀ entry ∈ types.entries, IsIdentifier entry.2 := by decide
    have hwords : (types.entries.map (·.2)).all (fun word => !controlWords.contains word) = true := by
      decide
    have hentry := Table.mem_of_get? h
    exact freeWord_of_all hwords (List.mem_map_of_mem hentry) (hidentifiers _ hentry)
  structureType h := by
    rw [dialect_structureTypeName]
    exact freeWord_correct controlWords_reserved h
  member {type name target} h := by
    obtain ⟨width, -, hswizzle⟩ := Option.bind_eq_some_iff.1 (show
      (Host.vectorWidth type).bind (identifiers.swizzle.lower name) = some target from h)
    exact Glsl.isIdentifier_swizzle hswizzle
  static h := inert_static h
  resource h := by
    rw [dialect_resourceReference]
    exact freeWord_correct controlWords_reserved h
  zero {type isStructure text} htype h := by
    obtain rfl := Option.some.inj h
    exact .zero htype.1
  construct {type isStructure arguments text} h := by
    cases isStructure with
    | true => cases h
    | false => exact (Option.some.inj h).symm
  remainder ha hb := by
    rw [dialect_floatRemainder]
    exact ha.binary hb .modulo
  call {function form arguments text} hform harguments h := by
    rcases intrinsics_cases hform with ⟨target, rfl, htarget⟩ | ⟨rfl, rfl⟩ | ⟨rfl, rfl⟩
    · have hwords : (intrinsics.entries.filterMap (·.2.target?)).all
          (fun word => !controlWords.contains word) = true := by
        decide +kernel
      exact inert_rename (freeWord_rename hwords hform htarget) harguments h
    · obtain ⟨x, y, rfl, rfl⟩ := flooredRemainder_ok h
      simp only [List.forall_mem_cons] at harguments
      obtain ⟨hx, hy, -⟩ := harguments
      have hfloor : FreeWord "floor" := by decide
      have hquotient := (hx.operand x.compound).binary (hy.operand y.compound) .divide
      have hwhole := Inert.call hfloor (List.forall_mem_singleton.2 hquotient)
      exact ((hx.operand x.compound).binary ((hy.operand y.compound).binary hwhole .multiply)
        .subtract).group
    · obtain ⟨a, b, c, rfl, rfl⟩ := sample_ok h
      simp only [List.forall_mem_cons] at harguments
      obtain ⟨ha, hb, hc, -⟩ := harguments
      have hsample : IsIdentifier "Sample" := by decide
      refine (ha.operand a.compound).method hsample ?_
      simp only [List.forall_mem_cons]
      exact ⟨hb, hc, nofun⟩

end Hlsl

theorem Target.inertForms (target : Target) : InertForms target.dialect := by
  cases target with
  | glslEs300 | glsl330 | glsl450 => exact Glsl.inertForms _
  | hlsl => exact Hlsl.inertForms

/-! ## Expressions -/

section Context

variable {c : Context} (hforms : InertForms c.dialect)
  (hstructures : ∀ entry ∈ c.structures, IsIdentifier (flattenDots entry.1))

include hforms hstructures

theorem freeWord_of_mappedType {type : TypeRef} {mapped : String} (h : c.mappedType type = .ok mapped) :
    FreeWord mapped := by
  rcases mappedType_cases h with htype | ⟨-, rfl, definition, hentry⟩
  · exact hforms.type htype
  · have hname := hstructures _ hentry
    exact hforms.structureType hname

theorem freeWord_of_scalarType {loc : Location} {type : TypeRef} {mapped : String}
    (h : c.scalarType loc type = .ok mapped) : FreeWord mapped :=
  freeWord_of_mappedType hforms hstructures (mappedType_of_scalarType h)

/-- **Default values are inert**, by the structures that they may consist of. -/
theorem inert_zero {loc : Location} {structures : List (String × Structure)} {type : TypeRef}
    {text : String} (h : c.zeroValueFrom loc structures type = .ok text) : Inert text := by
  induction structures generalizing type text with
  | nil =>
    obtain ⟨mapped, hmapped, hzero⟩ := zeroValueFrom_ok.1 h
    exact hforms.zero (freeWord_of_scalarType hforms hstructures hmapped) hzero
  | cons entry earlier ih =>
    obtain ⟨-, h⟩ | ⟨-, mapped, hmapped, hform⟩ := zeroValueFrom_ok.1 h
    · exact ih h
    have hname := freeWord_of_scalarType hforms hstructures hmapped
    obtain hzero | ⟨-, texts, hfields, hconstruct⟩ := hform
    · exact hforms.zero hname hzero
    -- a structure is built from its fields, whose structures come earlier
    obtain rfl := hforms.construct hconstruct
    refine .call hname fun text htext => ?_
    obtain ⟨field, -, zero, hzero, hfield⟩ := exists_left_of_forall₂ hfields text htext
    rcases hfield with ⟨-, rfl⟩ | ⟨-, element, helement, hconstruct⟩
    · exact ih hzero
    · obtain rfl := hforms.construct hconstruct
      refine .arrayCall (freeWord_of_scalarType hforms hstructures helement) field.count
        fun text htext => ?_
      rw [List.eq_of_mem_replicate htext]
      exact ih hzero

end Context

/-- The texts of arguments, alone and with what library calls ask of them. -/
theorem inert_lowerAll {s : Scope} {loc : Location} {es : List Expr} {texts : List String}
    (hes : ∀ e ∈ es, ∀ text, s.lower loc e = .ok text → Inert text)
    (h : s.lowerAll loc es = .ok texts) :
    (∀ text ∈ texts, Inert text) ∧ ∀ a ∈ List.zipWith s.argument es texts, Inert a.text := by
  have htexts := lowerAll_ok h
  clear h
  induction htexts with
  | nil => exact ⟨nofun, nofun⟩
  | cons htext _ ih =>
    have hfirst := hes _ List.mem_cons_self _ htext
    obtain ⟨hothers, hothers'⟩ := ih fun e he => hes e (List.mem_cons_of_mem _ he)
    exact ⟨List.forall_mem_cons.2 ⟨hfirst, hothers⟩, List.forall_mem_cons.2 ⟨hfirst, hothers'⟩⟩

section Scope

variable {s : Scope} {loc : Location} (hforms : InertForms s.dialect)
  (hstructures : ∀ entry ∈ s.context.structures, IsIdentifier (flattenDots entry.1))

include hforms

theorem isIdentifier_field {type name field : String} (hname : IsIdentifier name)
    (h : s.lowerMember loc type name = .ok field) : IsIdentifier field := by
  obtain ⟨-, -, -, -, rfl⟩ | ⟨-, hspelled⟩ := lowerMember_cases h
  · exact (hforms.correct hname).1
  · exact hforms.member hspelled

include hstructures

/-- **One step:** if the texts of all operands are inert, so is the text of the whole. -/
theorem inert_of_operands {e : Expr} (hworded : e.Worded s)
    (hoperands : ∀ o ∈ e.operands, ∀ text, s.lower loc o = .ok text → Inert text) {text : String}
    (h : s.lower loc e = .ok text) : Inert text := by
  have hoperand : ∀ o ∈ e.operands, ∀ text, s.IsOperand loc o text → Inert text := by
    rintro o ho text ⟨inner, hinner, rfl⟩
    exact (hoperands o ho inner hinner).operand _
  have hcomposed := composed_of_lower h
  clear h
  cases e with
  | literal value => exact inert_literal hcomposed
  | localVar name =>
    obtain rfl := hcomposed
    exact .word (hforms.correct hworded)
  | resource name =>
    obtain ⟨r, hr, rfl⟩ := hcomposed
    exact .word (hforms.resource (resource?_name hr ▸ hworded))
  | member base type name =>
    obtain ⟨owner, field, howner, hfield, rfl⟩ := hcomposed
    exact (hoperand base List.mem_cons_self owner howner).member
      (isIdentifier_field hforms hworded hfield)
  | staticMember type name => exact hforms.static hcomposed
  | index base i =>
    obtain ⟨owner, position, howner, hposition, rfl⟩ := hcomposed
    exact (hoperand base List.mem_cons_self owner howner).index
      (hoperands i (List.mem_cons_of_mem _ List.mem_cons_self) position hposition)
  | unary op operand =>
    obtain ⟨inner, hinner, rfl⟩ := hcomposed
    exact (hoperand operand List.mem_cons_self inner hinner).unary op
  | binary op left right =>
    obtain ⟨a, b, ha, hb, rfl⟩ := hcomposed
    have hleft := hoperand left List.mem_cons_self a ha
    have hright := hoperand right (List.mem_cons_of_mem _ List.mem_cons_self) b hb
    unfold Scope.remainder
    split
    · split
      · exact hforms.remainder hleft hright
      · exact hleft.binary hright .modulo
    · exact hleft.binary hright op
  | conditional condition accept reject =>
    obtain ⟨c, a, r, hc, ha, hr, rfl⟩ := hcomposed
    exact (hoperand condition List.mem_cons_self c hc).conditional
      (hoperand accept (List.mem_cons_of_mem _ List.mem_cons_self) a ha)
      (hoperand reject (by simp [Expr.operands]) r hr)
  | call function arguments =>
    obtain ⟨texts, htexts, ⟨hknown, rfl⟩ | ⟨-, form, hform, happly⟩⟩ := hcomposed
    · exact .call (hforms.correct (hworded hknown)) (inert_lowerAll hoperands htexts).1
    · exact hforms.call hform (inert_lowerAll hoperands htexts).2 happly
  | construct type arguments =>
    cases arguments with
    | nil => exact inert_zero hforms hstructures hcomposed
    | cons first rest =>
      obtain ⟨mapped, texts, hmapped, htexts, hform⟩ := hcomposed
      obtain rfl := hforms.construct hform
      exact .call (freeWord_of_scalarType hforms hstructures hmapped)
        (inert_lowerAll hoperands htexts).1
  | cast type operand =>
    obtain ⟨mapped, inner, hmapped, hinner, hform⟩ := hcomposed
    obtain rfl := hforms.construct hform
    exact .call (freeWord_of_scalarType hforms hstructures hmapped)
      (List.forall_mem_singleton.2 (hoperands operand List.mem_cons_self inner hinner))

/-- **The texts of expressions are inert.** -/
theorem inert_lower {e : Expr} (hworded : ∀ x : Expr, x.Part e → x.Worded s) {text : String}
    (h : s.lower loc e = .ok text) : Inert text := by
  induction e using Expr.operands_induction generalizing text with
  | _ e ih =>
    refine inert_of_operands hforms hstructures (hworded e .self) (fun o ho otext hotext => ?_) h
    exact ih o ho (fun x hx => hworded x (.operand ho hx)) hotext

/-! ## Simple statements -/

theorem inert_declarator {name : String} (hname : IsIdentifier name) {type : TypeRef} {count : Nat}
    {text : String} (h : s.declarator loc name type count = .ok text) : Inert text := by
  obtain ⟨-, mapped, hmapped, rfl⟩ := declarator_ok h
  have hblank : isJoint " " = true := by decide
  have htype := Inert.word (freeWord_of_mappedType hforms hstructures hmapped)
  have htyped := htype.append ((solid_word (hforms.correct hname).1).behind hblank)
  have hwhole := htyped.counted count
  rwa [← String.append_assoc] at hwhole

theorem inert_assignment {place value : Expr} {op : AssignOp} {text : String}
    (hplace : ∀ x : Expr, x.Part place → x.Worded s) (hvalue : ∀ x : Expr, x.Part value → x.Worded s)
    (h : s.assignment loc place op value = .ok text) : Inert text := by
  obtain ⟨placeText, valueText, hplaceText, hvalueText, rfl⟩ := assignment_ok h
  have ha := inert_lower hforms hstructures hplace hplaceText
  have hb := inert_lower hforms hstructures hvalue hvalueText
  split
  · have hequals : isJoint " = " = true := by decide
    have hremainder := hforms.remainder (ha.operand place.isCompound) (hb.operand value.isCompound)
    have hwhole := ha.append (hremainder.behind hequals)
    rwa [← String.append_assoc] at hwhole
  · have hjoint : isJoint (" " ++ op.token ++ " ") = true := by cases op <;> rfl
    have htext : placeText ++ " " ++ op.token ++ " " ++ valueText =
        placeText ++ (" " ++ op.token ++ " " ++ valueText) := by
      simp only [String.append_assoc]
    have hwhole := ha.append (hb.behind hjoint)
    rw [← htext] at hwhole
    exact hwhole

/-- **The texts of simple statements are inert.** -/
theorem inert_simple {stmt : Stmt} (hworded : Worded s stmt) {text : String}
    (h : s.simple stmt = .ok text) : Inert text := by
  cases stmt with
  | declare loc name type count value =>
    have hname : IsIdentifier name := hworded.declared (name, type) List.mem_cons_self
    cases value with
    | none => exact inert_declarator hforms hstructures hname h
    | some value =>
      obtain ⟨declared, valueText, hdeclared, hvalueText, rfl⟩ := simple_declare_some_ok h
      have hequals : isJoint " = " = true := by decide
      have hvalue := inert_lower hforms hstructures (hworded.parts value List.mem_cons_self) hvalueText
      have hwhole := (inert_declarator hforms hstructures hname hdeclared).append (hvalue.behind hequals)
      rwa [← String.append_assoc] at hwhole
  | eval loc e => exact inert_lower hforms hstructures (hworded.parts e List.mem_cons_self) h
  | assign loc place op value =>
    exact inert_assignment hforms hstructures (hworded.parts place List.mem_cons_self)
      (hworded.parts value (List.mem_cons_of_mem _ List.mem_cons_self)) h
  | block | ifElse | forLoop | whileLoop | doWhile | switch | foreach | breakLoop | continueLoop | ret
  | discard => cases h

end Scope

end CrossShader
