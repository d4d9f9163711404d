import CrossShader.Proofs.GlobalNames
import CrossShader.Proofs.Reader.Token

/-!
# Words in a text

Where an identifier stands in a text as a whole word that is looked up by itself: it continues no other
word, is not continued, and is not the member behind a point.

* `Text.Opens`, `Text.Closes` — texts before and behind which a word has its end.
* `Text.Mentions` — a word that stands in a text.
* `Text.Mentions.between`, `Text.Mentions.head`, `Text.Mentions.argument` — where the words of a longer
  text come from.
-/

set_option autoImplicit false

namespace CrossShader.Text

open Reader

/-- Texts behind which a word begins. -/
def Opens (text : String) : Prop := ∀ c ∈ ending text, isWordChar c = false ∧ c ≠ '.'

/-- Texts before which a word ends. -/
def Closes (text : String) : Prop := ∀ c ∈ initial text, isWordChar c = false

theorem opens_empty : Opens "" := nofun

theorem closes_empty : Closes "" := nofun

theorem Opens.append {a b : String} (ha : Opens a) (hb : Opens b) : Opens (a ++ b) := by
  intro c hc
  rw [ending, String.toList_append, List.getLast?_append] at hc
  rcases Option.or_eq_some_iff.1 hc with hlast | ⟨-, hlast⟩
  · exact hb c hlast
  · exact ha c hlast

theorem Closes.append {a b : String} (ha : Closes a) (hb : Closes b) : Closes (a ++ b) := by
  intro c hc
  rw [initial, String.toList_append, List.head?_append] at hc
  rcases Option.or_eq_some_iff.1 hc with hfirst | ⟨-, hfirst⟩
  · exact ha c hfirst
  · exact hb c hfirst

/-- The last letter decides what a text opens. -/
theorem opens_of_ending {text : String} {c : Char} (h : ending text = some c)
    (hc : isWordChar c = false ∧ c ≠ '.') : Opens text := by
  intro d hd
  rw [h] at hd
  cases hd
  exact hc

/-- The first letter decides what a text closes. -/
theorem closes_of_initial {text : String} {c : Char} (h : initial text = some c)
    (hc : isWordChar c = false) : Closes text := by
  intro d hd
  rw [h] at hd
  cases hd
  exact hc

theorem opens_parenthesis (text : String) : Opens (text ++ "(") :=
  opens_of_ending (c := '(') (ending_append (by decide) text) (by decide)

theorem closes_parenthesis (text : String) : Closes ("(" ++ text) :=
  closes_of_initial (c := '(') (initial_append (by decide) text) (by decide)

theorem opens_blank (text : String) : Opens (text ++ " ") :=
  opens_of_ending (c := ' ') (ending_append (by decide) text) (by decide)

theorem closes_blank (text : String) : Closes (" " ++ text) :=
  closes_of_initial (c := ' ') (initial_append (by decide) text) (by decide)

/-- The word stands in the text as a whole. -/
def Mentions (text word : String) : Prop :=
  ∃ before after, text = before ++ word ++ after ∧ Opens before ∧ Closes after

namespace Mentions

variable {text word : String}

theorem self (word : String) : Mentions word word :=
  ⟨"", "", by rw [String.empty_append, String.append_empty], opens_empty, closes_empty⟩

/-- A word of a part that is set off from the rest. -/
theorem between (h : Mentions text word) {before after : String} (hbefore : Opens before)
    (hafter : Closes after) : Mentions (before ++ text ++ after) word := by
  obtain ⟨left, right, rfl, hleft, hright⟩ := h
  refine ⟨before ++ left, right ++ after, ?_, hbefore.append hleft, hright.append hafter⟩
  simp only [String.append_assoc]

theorem before (h : Mentions text word) {after : String} (hafter : Closes after) :
    Mentions (text ++ after) word := by
  have hwhole := h.between opens_empty hafter
  rwa [String.empty_append] at hwhole

theorem behind (h : Mentions text word) {before : String} (hbefore : Opens before) :
    Mentions (before ++ text) word := by
  have hwhole := h.between hbefore closes_empty
  rwa [String.append_empty] at hwhole

/-- A call has its name. -/
theorem head (name : String) (texts : List String) : Mentions (callText name texts) name := by
  rw [callText, String.append_assoc, String.append_assoc]
  exact (self name).before (closes_parenthesis _)

theorem joined {texts : List String} (htext : text ∈ texts) (h : Mentions text word) :
    Mentions (String.intercalate ", " texts) word := by
  induction texts with
  | nil => cases htext
  | cons first rest ih =>
    cases rest with
    | nil =>
      cases List.mem_singleton.1 htext
      rwa [String.intercalate_singleton]
    | cons second rest =>
      rw [String.intercalate_cons_cons]
      rcases List.mem_cons.1 htext with rfl | hrest
      · rw [String.append_assoc]
        exact h.before (closes_of_initial (c := ',') (initial_append (by decide) _) (by decide))
      · exact (ih hrest).behind (opens_of_ending (c := ' ') (ending_append (by decide) first) (by decide))

/-- A call has the words of its arguments. -/
theorem argument {texts : List String} (htext : text ∈ texts) (h : Mentions text word)
    (name : String) : Mentions (callText name texts) word :=
  (joined htext h).between (opens_parenthesis name) (closes_of_initial (c := ')') (by decide) (by decide))

/-- An operation has the words of its right operand. -/
theorem right (h : Mentions text word) (op : BinaryOp) (left : String) :
    Mentions (op.apply left text) word :=
  h.behind (opens_blank (left ++ " " ++ op.token))

theorem grouped (h : Mentions text word) : Mentions ("(" ++ text ++ ")") word :=
  h.between (opens_of_ending (c := '(') (by decide) (by decide))
    (closes_of_initial (c := ')') (by decide) (by decide))

end Mentions

end CrossShader.Text
