import CrossShader.Proofs.Reader.CastPhrase
import Mathlib.Data.List.Forall2

/-!
# Phrases as texts

The grammar read off texts: how texts of phrases are put together.  Without types there are no casts, so
the rules are those of the grammar with casts.

* `read` — the tree of a text.
* `Phrase` — texts whose tokens form a phrase of the grammar; `Phrase.read` — every such expression is
  read as its tree.
* `phrase_iff_cast`, `unsigned_iff_cast` — the same phrases with casts, but without types.
* `Phrase.group`, `Phrase.binary`, `Phrase.call` and the others — one rule for each way to put texts
  together.
-/

set_option autoImplicit false

namespace CrossShader.Reader

/-- The tree of an expression text. -/
def read (text : String) : Option Tree := (tokens text).bind parse

/-- A text whose tokens form a phrase with a given tree. -/
def Phrase (r : Rank) (text : String) (t : Tree) : Prop :=
  ∃ ts, tokens text = some ts ∧ Derives r ts t

theorem Phrase.read {text : String} {t : Tree} (h : Phrase .expression text t) :
    Reader.read text = some t := by
  obtain ⟨ts, hts, hd⟩ := h
  rw [Reader.read, hts]
  exact parse_eq_some_iff.2 hd

/-- A phrase that does not start with an operator. -/
def Unsigned (r : Rank) (text : String) (t : Tree) : Prop :=
  ∃ ts, tokens text = some ts ∧ Derives r ts t ∧ ts.head?.any Derives.startsPrimary = true

theorem phrase_iff_cast {r : Rank} {text : String} {t : Tree} :
    Phrase r text t ↔ Cast.Phrase (fun _ => false) r text t := by
  simp only [Phrase, Cast.Phrase, Cast.derives_iff_of_no_types]

theorem unsigned_iff_cast {r : Rank} {text : String} {t : Tree} :
    Unsigned r text t ↔ Cast.Unsigned (fun _ => false) r text t := by
  simp only [Unsigned, Cast.Unsigned, Cast.derives_iff_of_no_types]

/-! ## Rules -/

variable {text a b : String} {t left right : Tree}

namespace Phrase

theorem ofSuffixed (h : Phrase .suffixed text t) : Phrase (.operand unaryLevel) text t :=
  phrase_iff_cast.2 (phrase_iff_cast.1 h).unsigned.phrase

/-- Operands of a level are operands of every lower level. -/
theorem lower {m n : Nat} (hmn : m ≤ n) (hn : n ≤ unaryLevel) (h : Phrase (.operand n) text t) :
    Phrase (.operand m) text t :=
  phrase_iff_cast.2 ((phrase_iff_cast.1 h).lower hmn hn)

theorem ofOperand {n : Nat} (hn : 1 ≤ n) (hn' : n ≤ unaryLevel) (h : Phrase (.operand n) text t) :
    Phrase .expression text t :=
  phrase_iff_cast.2 ((phrase_iff_cast.1 h).ofOperand hn hn')

theorem expression (h : Phrase .suffixed text t) : Phrase .expression text t :=
  phrase_iff_cast.2 (phrase_iff_cast.1 h).expression

theorem word {name : String} (h : IsIdentifier name) :
    Phrase .suffixed name (wordTree name.toList) :=
  phrase_iff_cast.2 (.word h)

theorem name {name : String} (h : IsName name) : Phrase .suffixed name (.name name) :=
  phrase_iff_cast.2 (.name h)

theorem number (h : IsNumeral text) : Phrase .suffixed text (.number text) :=
  phrase_iff_cast.2 (.number h)

theorem group (h : Phrase .expression text t) : Phrase .suffixed ("(" ++ text ++ ")") t :=
  phrase_iff_cast.2 ((phrase_iff_cast.1 h).group fun _ _ => rfl)

/-- A member of anything but a number. -/
theorem member {name : String} (h : Phrase .suffixed text t) (ht : ∀ w, t ≠ .number w)
    (hname : IsIdentifier name) : Phrase .suffixed (text ++ "." ++ name) (.member t name) :=
  phrase_iff_cast.2 ((phrase_iff_cast.1 h).member ht hname)

theorem index {i : Tree} (ha : Phrase .suffixed a t) (hb : Phrase .expression b i) :
    Phrase .suffixed (a ++ "[" ++ b ++ "]") (.index t i) :=
  phrase_iff_cast.2 ((phrase_iff_cast.1 ha).index (phrase_iff_cast.1 hb))

/-- **A call with any arguments.** -/
theorem call {texts : List String} {trees : List Tree} (hf : Phrase .suffixed a t)
    (harguments : List.Forall₂ (Phrase .expression) texts trees) :
    Phrase .suffixed (Text.callText a texts) (.call t trees) :=
  phrase_iff_cast.2 ((phrase_iff_cast.1 hf).call (harguments.imp fun _ _ => phrase_iff_cast.1))

end Phrase

theorem Unsigned.phrase {r : Rank} (h : Unsigned r text t) : Phrase r text t :=
  phrase_iff_cast.2 (unsigned_iff_cast.1 h).phrase

theorem Phrase.unsigned (h : Phrase .suffixed text t) {n : Nat} (hn : n ≤ unaryLevel) :
    Unsigned (.operand n) text t :=
  unsigned_iff_cast.2 ((phrase_iff_cast.1 h).unsigned.lower hn (Nat.le_refl _))

/-- **An operator between two operands**, the left one of its level and the right one above it. -/
theorem Unsigned.binary (op : BinaryOp) (hleft : Unsigned (.operand (level op)) a left)
    (hright : Unsigned (.operand (level op + 1)) b right) :
    Unsigned (.operand (level op)) (op.apply a b) (.binary op left right) :=
  unsigned_iff_cast.2 ((unsigned_iff_cast.1 hleft).binary op (unsigned_iff_cast.1 hright))

/-- **An operator with one operand.** -/
theorem Phrase.unary (op : UnaryOp) (h : Phrase .suffixed text t) :
    Phrase (.operand unaryLevel) (op.apply text) (.unary op t) := by
  have hoperand := phrase_iff_cast.1 h
  refine phrase_iff_cast.2 ?_
  cases hop : op.followsOperand with
  | true => exact (hoperand.trailing op hop).unsigned.phrase
  | false => exact .leading op hop hoperand.unsigned

/-- **The conditional operator.** -/
theorem Phrase.conditional {c accept reject : String} {tc ta tr : Tree}
    (hc : Phrase (.operand 1) c tc) (ha : Phrase .expression accept ta)
    (hr : Phrase .expression reject tr) :
    Phrase .expression (Text.conditionalText c accept reject) (.conditional tc ta tr) :=
  phrase_iff_cast.2 ((phrase_iff_cast.1 hc).conditional (phrase_iff_cast.1 ha) (phrase_iff_cast.1 hr))

end CrossShader.Reader
