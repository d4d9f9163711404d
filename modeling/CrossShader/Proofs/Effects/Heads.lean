import CrossShader.Expr
import CrossShader.Proofs.Reader.Token
import CrossShader.Text.Phrase
import Mathlib.Data.List.Forall2

/-!
# Calls and steps in a text

Where a text calls something by name, and where it counts up or down, found character by character.

* `Head` — a name right before an opening parenthesis, or a doubled sign.
* `Mode.next`, `scanHeads`, `heads` — the heads of a text, from left to right.
* `Among` — some heads among names that a library provides.
* `Reads` — what a piece of text shows, and where it leaves the reader; pieces are put together by
  `Reads.append`.
* `Shows`, `Firm` — texts that stand on their own, and texts that may follow a sign; `Exhibits` — both, as
  an operand needs them.
* `Exhibits.operand` — parentheses keep signs apart; `Exhibits.unary`, `Exhibits.member`,
  `Exhibits.index`, `Exhibits.call` — the forms around operands.
-/

set_option autoImplicit false

namespace CrossShader.Effects

open Reader (isWordChar IsIdentifier)
open Text

/-! ## Heads -/

/-- A call by name, or a step up or down. -/
inductive Head where
  | call (name : String)
  | step (token : String)
  deriving DecidableEq, Repr

/-- What a reader has just passed: the letters of a word, a sign, or anything else. -/
inductive Mode where
  | other
  | word (letters : List Char)
  | sign (c : Char)
  deriving DecidableEq, Repr

namespace Mode

/-- The letters of the word so far. -/
def letters : Mode → List Char
  | word w => w
  | other | sign _ => []

/-- What an opening parenthesis calls here. -/
def called : Mode → List Head
  | word w => [.call (String.ofList w)]
  | other | sign _ => []

/-- Pass one character. -/
def next (m : Mode) (c : Char) : Mode × List Head :=
  if isWordChar c then (word (m.letters ++ [c]), [])
  else if c = '(' then (other, m.called)
  else if c = '+' ∨ c = '-' then
    if m = sign c then (other, [.step (String.ofList [c, c])]) else (sign c, [])
  else (other, [])

end Mode

/-- Pass several characters. -/
def scanHeads (m : Mode) : List Char → Mode × List Head
  | [] => (m, [])
  | c :: cs =>
    let first := m.next c
    let rest := scanHeads first.1 cs
    (rest.1, first.2 ++ rest.2)

/-- The heads of a text, from left to right. -/
def heads (text : String) : List Head := (scanHeads .other text.toList).2

theorem scanHeads_append (m : Mode) (cs ds : List Char) :
    scanHeads m (cs ++ ds) =
      ((scanHeads (scanHeads m cs).1 ds).1,
        (scanHeads m cs).2 ++ (scanHeads (scanHeads m cs).1 ds).2) := by
  induction cs generalizing m with
  | nil => rfl
  | cons c cs ih =>
    rw [List.cons_append, scanHeads, ih]
    simp only [scanHeads, List.append_assoc]

/-- The letters of a word pass without a head. -/
theorem scanHeads_word {cs : List Char} (h : cs.all isWordChar = true) (hne : cs ≠ []) (m : Mode) :
    scanHeads m cs = (.word (m.letters ++ cs), []) := by
  induction cs generalizing m with
  | nil => exact absurd rfl hne
  | cons c cs ih =>
    rw [List.all_cons, Bool.and_eq_true] at h
    have hnext : m.next c = (.word (m.letters ++ [c]), []) := by rw [Mode.next, if_pos h.1]
    cases cs with
    | nil => simp only [scanHeads, hnext, List.append_nil]
    | cons d ds =>
      rw [scanHeads, hnext, ih h.2 nofun]
      simp only [Mode.letters, List.append_assoc, List.singleton_append, List.append_nil]

/-- Some heads among names that a library provides. -/
inductive Among (library : String → Prop) : List Head → List Head → Prop
  | nil : Among library [] []
  | effect {hs es : List Head} (h : Head) : Among library hs es → Among library (h :: hs) (h :: es)
  | library {hs es : List Head} {name : String} :
      library name → Among library hs es → Among library (.call name :: hs) es

namespace Among

variable {library : String → Prop} {hs hs' es es' : List Head}

theorem append (h : Among library hs es) (h' : Among library hs' es') :
    Among library (hs ++ hs') (es ++ es') := by
  induction h with
  | nil => exact h'
  | effect head _ ih => exact .effect head ih
  | library hname _ ih => exact .library hname ih

/-- A head that the library does not provide is there as often as among the others. -/
theorem count_eq (h : Among library hs es) {head : Head}
    (hhead : ∀ name, library name → head ≠ .call name) : hs.count head = es.count head := by
  induction h with
  | nil => rfl
  | effect other _ ih => rw [List.count_cons, List.count_cons, ih]
  | library hname _ ih => rw [List.count_cons_of_ne (hhead _ hname).symm, ih]

end Among

/-! ## Pieces of text -/

section Pieces

variable {library : String → Prop}

/-- From the mode `m`, a piece of text shows some heads among library names, and leaves the reader in the
mode `m'`. -/
def Reads (library : String → Prop) (m : Mode) (text : String) (m' : Mode) (es : List Head) : Prop :=
  ∃ hs, scanHeads m text.toList = (m', hs) ∧ Among library hs es

/-- **Pieces are put together** where one leaves the reader and the next takes over. -/
theorem Reads.append {m m' m'' : Mode} {a b : String} {es fs : List Head}
    (ha : Reads library m a m' es) (hb : Reads library m' b m'' fs) :
    Reads library m (a ++ b) m'' (es ++ fs) := by
  obtain ⟨hs, hscan, hamong⟩ := ha
  obtain ⟨hs', hscan', hamong'⟩ := hb
  refine ⟨hs ++ hs', ?_, hamong.append hamong'⟩
  rw [String.toList_append, scanHeads_append, hscan, hscan']

/-- A piece without heads. -/
theorem Reads.silent {m m' : Mode} {text : String} (h : scanHeads m text.toList = (m', [])) :
    Reads library m text m' [] :=
  ⟨[], h, .nil⟩

theorem Reads.word {name : String} (h : IsIdentifier name) (m : Mode) :
    Reads library m name (.word (m.letters ++ name.toList)) [] := by
  have hword := Reader.isIdentifier_iff.1 h
  obtain ⟨c, cs, hname, -⟩ := id hword
  exact .silent (scanHeads_word hword.all (by rw [hname]; exact nofun) m)

theorem scanHeads_open (name : String) :
    scanHeads (.word name.toList) "(".toList = (.other, [.call name]) := by
  have hcall : scanHeads (.word name.toList) "(".toList =
      (.other, [.call (String.ofList name.toList)]) := rfl
  rw [hcall, String.ofList_toList]

/-- The opening parenthesis of a library call. -/
theorem Reads.openLibrary {name : String} (h : library name) :
    Reads library (.word name.toList) "(" .other [] :=
  ⟨[.call name], scanHeads_open name, .library h .nil⟩

/-- The opening parenthesis of any call. -/
theorem Reads.openCall (name : String) :
    Reads library (.word name.toList) "(" .other [.call name] :=
  ⟨[.call name], scanHeads_open name, .effect _ .nil⟩

/-- A text that shows nothing, wherever it stands. -/
def Separator (text : String) : Prop := ∀ m, scanHeads m text.toList = (.other, [])

theorem Separator.reads {text : String} (h : Separator text) (m : Mode) :
    Reads library m text .other [] :=
  .silent (h m)

theorem separator_dot : Separator "." := fun _ => rfl
theorem separator_comma : Separator ", " := fun _ => rfl
theorem separator_close : Separator ")" := fun _ => rfl
theorem separator_openBracket : Separator "[" := fun _ => rfl
theorem separator_closeBracket : Separator "]" := fun _ => rfl

theorem separator_operator (op : BinaryOp) : Separator (" " ++ op.token ++ " ") := by
  intro m
  cases op <;> rfl

end Pieces

/-! ## Whole texts -/

/-- Whether the reader has just passed a sign. -/
def Mode.isSign : Mode → Bool
  | sign _ => true
  | other | word _ => false

/-- A text that stands on its own shows some heads among library names, and does not end in a sign. -/
def Shows (library : String → Prop) (text : String) (es : List Head) : Prop :=
  ∃ m, Reads library .other text m es ∧ m.isSign = false

/-- A text that does not start with a sign, so that no sign before it belongs to it. -/
def Firm (text : String) : Prop := ∃ c cs, text.toList = c :: cs ∧ c ≠ '+' ∧ c ≠ '-'

theorem Firm.append {a : String} (h : Firm a) (b : String) : Firm (a ++ b) := by
  obtain ⟨c, cs, htext, hplus, hminus⟩ := h
  exact ⟨c, cs ++ b.toList, by rw [String.toList_append, htext, List.cons_append], hplus, hminus⟩

theorem firm_of_identifier {name : String} (h : IsIdentifier name) : Firm name := by
  obtain ⟨c, cs, hname, hc, -⟩ := Reader.isIdentifier_iff.1 h
  refine ⟨c, cs, hname, ?_, ?_⟩ <;>
  · rintro rfl
    revert hc
    decide

/-- A sign before a firm text does not matter to it. -/
theorem Firm.scanHeads_sign {text : String} (h : Firm text) (c : Char) :
    scanHeads (.sign c) text.toList = scanHeads .other text.toList := by
  obtain ⟨d, ds, htext, hplus, hminus⟩ := h
  have hnext : (Mode.sign c).next d = Mode.other.next d := by
    simp [Mode.next, Mode.letters, Mode.called, hplus, hminus]
  rw [htext, scanHeads, scanHeads, hnext]

theorem Shows.after_sign {library : String → Prop} {text : String} {es : List Head}
    (h : Shows library text es) (hfirm : Firm text) (c : Char) :
    ∃ m, Reads library (.sign c) text m es ∧ m.isSign = false := by
  obtain ⟨m, ⟨hs, hscan, hamong⟩, hm⟩ := h
  exact ⟨m, ⟨hs, by rw [hfirm.scanHeads_sign, hscan], hamong⟩, hm⟩

section Whole

variable {library : String → Prop} {a b text : String} {es fs : List Head}

theorem Shows.word {name : String} (h : IsIdentifier name) : Shows library name [] :=
  ⟨_, .word h .other, rfl⟩

/-- Two texts with a separator between them. -/
theorem Shows.separated (ha : Shows library a es) {sep : String} (hsep : Separator sep)
    (hb : Shows library b fs) : Shows library (a ++ sep ++ b) (es ++ fs) := by
  obtain ⟨m, ha, -⟩ := ha
  obtain ⟨m', hb, hm'⟩ := hb
  have hwhole := (ha.append (hsep.reads m)).append hb
  rw [List.append_nil] at hwhole
  exact ⟨m', hwhole, hm'⟩

/-- A text before a separator. -/
theorem Shows.closed (ha : Shows library a es) {sep : String} (hsep : Separator sep) :
    Shows library (a ++ sep) es := by
  obtain ⟨m, ha, -⟩ := ha
  have hwhole := ha.append (hsep.reads m)
  rw [List.append_nil] at hwhole
  exact ⟨_, hwhole, rfl⟩

theorem Shows.grouped (h : Shows library text es) : Shows library ("(" ++ text ++ ")") es := by
  obtain ⟨m, h, -⟩ := h
  have hopen : Reads library .other "(" .other [] := .silent rfl
  have hwhole := (hopen.append h).append (separator_close.reads m)
  rw [List.nil_append, List.append_nil] at hwhole
  exact ⟨_, hwhole, rfl⟩

/-- The arguments of a call. -/
theorem Shows.joined {texts : List String} {parts : List (List Head)}
    (h : List.Forall₂ (Shows library) texts parts) :
    Shows library (String.intercalate ", " texts) parts.flatten := by
  induction h with
  | nil => exact ⟨.other, .silent rfl, rfl⟩
  | @cons text part texts parts htext hrest ih =>
    cases hrest with
    | nil =>
      rw [String.intercalate_singleton, List.flatten_singleton]
      exact htext
    | cons =>
      rw [String.intercalate_cons_cons]
      exact htext.separated separator_comma ih

theorem Shows.binary (op : BinaryOp) (ha : Shows library a es) (hb : Shows library b fs) :
    Shows library (op.apply a b) (es ++ fs) := by
  have htext : op.apply a b = a ++ (" " ++ op.token ++ " ") ++ b := by
    change a ++ " " ++ op.token ++ " " ++ b = _
    simp only [String.append_assoc]
  rw [htext]
  exact ha.separated (separator_operator op) hb

theorem Shows.conditional {c : String} {cs : List Head} (hc : Shows library c cs)
    (ha : Shows library a es) (hb : Shows library b fs) :
    Shows library (conditionalText c a b) (cs ++ es ++ fs) :=
  (hc.separated (fun _ => rfl) ha).separated (fun _ => rfl) hb

end Whole

/-! ## Operands -/

/-- What a text shows, on its own and as an operand: where it stands without parentheses, it does not start
with a sign. -/
structure Exhibits (library : String → Prop) (compound : Bool) (text : String) (es : List Head) :
    Prop where
  shows : Shows library text es
  firm : compound = false → Firm text

/-- The heads that an operator with one operand adds. -/
def steps (op : UnaryOp) : List Head :=
  match op with
  | .preIncrement | .preDecrement | .postIncrement | .postDecrement => [.step op.token]
  | .negate | .logicalNot | .bitwiseNot => []

section Operands

variable {library : String → Prop} {compound : Bool} {text : String} {es : List Head}

theorem Exhibits.word {name : String} (h : IsIdentifier name) : Exhibits library compound name [] :=
  ⟨.word h, fun _ => firm_of_identifier h⟩

theorem Exhibits.of_compound (h : Shows library text es) : Exhibits library true text es := ⟨h, nofun⟩

theorem firm_grouped (text : String) : Firm ("(" ++ text ++ ")") :=
  Firm.append (Firm.append ⟨'(', [], rfl, by decide, by decide⟩ text) ")"

/-- **Parentheses stand where a sign could meet another one.** -/
theorem Exhibits.operand (h : Exhibits library compound text es) :
    Exhibits library false (parenthesize compound text) es := by
  cases compound with
  | false => exact h
  | true => exact ⟨h.shows.grouped, fun _ => firm_grouped text⟩

/-- A doubled sign is a step, wherever no sign stands before it. -/
theorem Reads.doubled {m : Mode} (hm : m.isSign = false) {token : String}
    (htoken : token = "++" ∨ token = "--") : Reads library m token .other [.step token] := by
  refine ⟨[.step token], ?_, .effect _ .nil⟩
  rcases htoken with rfl | rfl <;> cases m <;> first | rfl | cases hm

/-- An operator before an operand. -/
theorem Shows.before {m : Mode} {token : String} {fs : List Head}
    (htoken : Reads library .other token m fs)
    (h : ∃ m', Reads library m text m' es ∧ m'.isSign = false) :
    Shows library (token ++ text) (fs ++ es) := by
  obtain ⟨m', h, hm'⟩ := h
  exact ⟨m', htoken.append h, hm'⟩

/-- A doubled sign behind an operand. -/
theorem Shows.doubled (h : Shows library text es) {token : String}
    (htoken : token = "++" ∨ token = "--") : Shows library (text ++ token) (es ++ [.step token]) := by
  obtain ⟨m, h, hm⟩ := h
  exact ⟨.other, h.append (.doubled hm htoken), rfl⟩

/-- **Operators with one operand.** -/
theorem Exhibits.unary (op : UnaryOp) (h : Exhibits library false text es) :
    Shows library (op.apply text) (if op.followsOperand then es ++ steps op else steps op ++ es) := by
  cases op with
  | negate => exact .before (.silent rfl) (h.shows.after_sign (h.firm rfl) '-')
  | logicalNot | bitwiseNot => exact .before (.silent rfl) h.shows
  | preIncrement => exact .before (.doubled rfl (.inl rfl)) h.shows
  | preDecrement => exact .before (.doubled rfl (.inr rfl)) h.shows
  | postIncrement => exact h.shows.doubled (.inl rfl)
  | postDecrement => exact h.shows.doubled (.inr rfl)

/-- A member of an operand. -/
theorem Exhibits.member (h : Exhibits library false text es) {name : String} (hname : IsIdentifier name) :
    Exhibits library compound (text ++ "." ++ name) es := by
  have hshows := h.shows.separated separator_dot (.word hname)
  rw [List.append_nil] at hshows
  exact ⟨hshows, fun _ => ((h.firm rfl).append ".").append name⟩

/-- An element of an operand. -/
theorem Exhibits.index (h : Exhibits library false text es) {position : String} {fs : List Head}
    (hposition : Shows library position fs) :
    Exhibits library compound (text ++ "[" ++ position ++ "]") (es ++ fs) :=
  ⟨(h.shows.separated separator_openBracket hposition).closed separator_closeBracket,
    fun _ => (((h.firm rfl).append "[").append position).append "]"⟩

/-- A call, by what its opening parenthesis shows. -/
theorem Exhibits.call {name : String} (hname : IsIdentifier name) {fs : List Head}
    (hopen : Reads library (.word name.toList) "(" .other fs) {texts : List String}
    {parts : List (List Head)} (h : List.Forall₂ (Shows library) texts parts) :
    Exhibits library compound (callText name texts) (fs ++ parts.flatten) := by
  obtain ⟨m, harguments, -⟩ := Shows.joined h
  have hwhole := (((Reads.word hname .other).append hopen).append harguments).append
    (separator_close.reads m)
  rw [List.append_nil] at hwhole
  exact ⟨⟨_, hwhole, rfl⟩, fun _ => (((firm_of_identifier hname).append "(").append _).append ")"⟩

theorem forall₂_silent {texts : List String} (h : ∀ text ∈ texts, Shows library text []) :
    List.Forall₂ (Shows library) texts (texts.map fun _ => []) := by
  rw [List.forall₂_map_right_iff, List.forall₂_same]
  exact h

/-- A call whose arguments show nothing. -/
theorem Exhibits.silentCall {name : String} (hname : IsIdentifier name)
    (hopen : Reads library (.word name.toList) "(" .other []) {texts : List String}
    (h : ∀ text ∈ texts, Shows library text []) : Exhibits library compound (callText name texts) [] := by
  have hcall : Exhibits library compound _ _ := .call hname hopen (forall₂_silent h)
  simpa using hcall

end Operands

end CrossShader.Effects
