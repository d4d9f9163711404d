import CrossShader.Proofs.Reader.Border
import CrossShader.Proofs.Reader.Cast
import CrossShader.Proofs.Reader.Numeral

/-!
# Phrases with casts as texts

How texts of phrases are put together where casts are.  A cast stands among operands as a sign does: it
binds more tightly than the operators between operands and more loosely than suffixes.

* `Phrase`, `Unsigned` — texts whose tokens form a phrase, or one that starts with no sign.
* `Phrase.cast` — the name of a type in parentheses before an operand.
* `Phrase.group`, `Phrase.binary`, `Phrase.call` and the others — one rule for each way to put texts together.
* `startsCast_of_tokens` — a text that starts with a cast is read so, whatever follows.
-/

set_option autoImplicit false

namespace CrossShader.Reader.Cast

/-- A text whose tokens form a phrase with a given tree. -/
def Phrase (isType : List Char → Bool) (r : Rank) (text : String) (t : Tree) : Prop :=
  ∃ ts, tokens text = some ts ∧ Derives isType r ts t

/-- A phrase that does not start with an operator. -/
def Unsigned (isType : List Char → Bool) (r : Rank) (text : String) (t : Tree) : Prop :=
  ∃ ts, tokens text = some ts ∧ Derives isType r ts t ∧
    ts.head?.any Reader.Derives.startsPrimary = true

variable {isType : List Char → Bool}

/-! ## Ends of phrases -/

theorem Derives.getLast?_closes {r : Rank} {ts : List Token} {t : Tree} (h : Derives isType r ts t) :
    ∃ last, ts.getLast? = some last ∧ last.closes = true := by
  induction h with
  | word w => exact ⟨.word w, rfl, rfl⟩
  | number w => exact ⟨.number w, rfl, rfl⟩
  | group | closedCall => exact ⟨.mark .closeParen, List.getLast?_concat, rfl⟩
  | emptyCall => exact ⟨.mark .closeParen, by simp, rfl⟩
  | member w => exact ⟨.word w, by simp, rfl⟩
  | index => exact ⟨.mark .closeBracket, List.getLast?_concat, rfl⟩
  | @trailing _ _ m _ hop => exact ⟨.mark m, by simp, by simp [Token.closes, hop]⟩
  | ofPrimary _ ih | ofSuffixed _ ih | lift _ _ ih | ofOperand _ ih => exact ih
  | firstArgument _ _ _ ih | nextArgument _ _ _ ih | leading _ _ ih | cast _ _ ih
  | binary _ _ _ _ ih | conditional _ _ _ _ _ ih =>
    obtain ⟨last, hlast, hcloses⟩ := ih
    exact ⟨last, by simp [List.getLast?_cons, hlast], hcloses⟩

theorem Derives.ne_nil {r : Rank} {ts : List Token} {t : Tree} (h : Derives isType r ts t) :
    ts ≠ [] := by
  rintro rfl
  obtain ⟨last, hlast, -⟩ := h.getLast?_closes
  cases hlast

/-- A phrase with suffixes that ends in a number is that number. -/
theorem Derives.eq_number {ts : List Token} {t : Tree} {w : List Char}
    (h : Derives isType .suffixed ts t) (hlast : ts.getLast? = some (.number w)) :
    t = .number (String.ofList w) := by
  cases h with
  | ofPrimary h =>
    cases h with
    | word => simp at hlast
    | group =>
      rw [List.getLast?_concat] at hlast
      cases hlast
    | number w' =>
      simp only [List.getLast?_singleton, Option.some.injEq, Token.number.injEq] at hlast
      rw [hlast]
  | index =>
    rw [List.getLast?_concat] at hlast
    cases hlast
  | member | trailing | emptyCall | closedCall => simp at hlast

theorem closed_of_derives {text : String} {r : Rank} {ts : List Token} {t : Tree}
    (hts : tokens text = some ts) (hd : Derives isType r ts t) : Closed ts := by
  obtain ⟨last, hlast, hcloses⟩ := hd.getLast?_closes
  exact closed_of_closes hts hlast hcloses

/-! ## Rules -/

variable {text a b : String} {t left right : Tree}

theorem Unsigned.phrase {r : Rank} (h : Unsigned isType r text t) : Phrase isType r text t := by
  obtain ⟨ts, hts, hd, -⟩ := h
  exact ⟨ts, hts, hd⟩

theorem Phrase.unsigned (h : Phrase isType .suffixed text t) :
    Unsigned isType (.operand unaryLevel) text t := by
  obtain ⟨ts, hts, hd⟩ := h
  exact ⟨ts, hts, .ofSuffixed hd, hd.head?_suffixed⟩

theorem Derives.lower {m n : Nat} {ts : List Token} (hmn : m ≤ n) (hn : n ≤ unaryLevel)
    (h : Derives isType (.operand n) ts t) : Derives isType (.operand m) ts t := by
  induction hmn with
  | refl => exact h
  | step _ ih => exact ih (by omega) (.lift (by omega) h)

theorem Phrase.lower {m n : Nat} (hmn : m ≤ n) (hn : n ≤ unaryLevel)
    (h : Phrase isType (.operand n) text t) : Phrase isType (.operand m) text t := by
  obtain ⟨ts, hts, hd⟩ := h
  exact ⟨ts, hts, hd.lower hmn hn⟩

/-- Operands of a level are operands of every lower level. -/
theorem Unsigned.lower {m n : Nat} (hmn : m ≤ n) (hn : n ≤ unaryLevel)
    (h : Unsigned isType (.operand n) text t) : Unsigned isType (.operand m) text t := by
  obtain ⟨ts, hts, hd, hhead⟩ := h
  exact ⟨ts, hts, hd.lower hmn hn, hhead⟩

namespace Phrase

theorem ofOperand {n : Nat} (hn : 1 ≤ n) (hn' : n ≤ unaryLevel)
    (h : Phrase isType (.operand n) text t) : Phrase isType .expression text t := by
  obtain ⟨ts, hts, hd⟩ := h
  exact ⟨ts, hts, .ofOperand (hd.lower hn hn')⟩

theorem expression (h : Phrase isType .suffixed text t) : Phrase isType .expression text t :=
  h.unsigned.phrase.ofOperand (by decide) (Nat.le_refl _)

theorem word {name : String} (h : IsIdentifier name) :
    Phrase isType .suffixed name (wordTree name.toList) :=
  ⟨_, h, .ofPrimary (.word _)⟩

theorem name {name : String} (h : IsName name) : Phrase isType .suffixed name (.name name) := by
  have hword : Phrase isType .suffixed name (wordTree name.toList) := .word h.1
  rwa [h.wordTree] at hword

theorem number (h : IsNumeral text) : Phrase isType .suffixed text (.number text) := by
  have hnumber : Derives isType .primary [.number text.toList] _ := .number text.toList
  rw [String.ofList_toList] at hnumber
  exact ⟨_, h, .ofPrimary hnumber⟩

/-- Parentheses around anything but the name of a type. -/
theorem group (h : Phrase isType .expression text t) (ht : ∀ w, t = wordTree w → isType w = false) :
    Phrase isType .suffixed ("(" ++ text ++ ")") t := by
  obtain ⟨ts, hts, hd⟩ := h
  have hopen : tokens "(" = some ([] ++ [.mark .openParen]) := rfl
  have hclose : tokens ")" = some [.mark .closeParen] := rfl
  have hinner := tokens_append_mark hopen hts fun _ _ => rfl
  have hclosed : Closed ([.mark .openParen] ++ ts) := (closed_of_derives hts hd).append hd.ne_nil
  have htype : ∀ w, ts = [.word w] → isType w = false := by
    rintro w rfl
    have hword : Derives isType (.operand unaryLevel) [.word w] (wordTree w) :=
      .ofSuffixed (.ofPrimary (.word w))
    exact ht w (hd.unique (.ofOperand (hword.lower (by decide) (Nat.le_refl _))))
  exact ⟨_, tokens_append_closed hinner hclosed hclose rfl, .ofPrimary (.group hd htype)⟩

/-- A member of anything but a number. -/
theorem member {name : String} (h : Phrase isType .suffixed text t) (ht : ∀ w, t ≠ .number w)
    (hname : IsIdentifier name) : Phrase isType .suffixed (text ++ "." ++ name) (.member t name) := by
  obtain ⟨ts, hts, hd⟩ := h
  have hdot : tokens "." = some [.mark .dot] := rfl
  have hbase : tokens (text ++ ".") = some (ts ++ [.mark .dot]) := by
    refine tokens_append hts hdot fun last hlast c hc => ?_
    obtain rfl : '.' = c := Option.some.inj hc
    obtain ⟨last', hlast', hcloses⟩ := hd.getLast?_closes
    cases hlast.symm.trans hlast'
    cases last with
    | word w => rfl
    | number w => exact absurd (hd.eq_number hlast) (ht _)
    | mark m => cases m <;> first | rfl | cases hcloses
  have hwhole : tokens (text ++ "." ++ name) = some (ts ++ .mark .dot :: [.word name.toList]) := by
    refine tokens_append_mark hbase hname fun c hc => ?_
    obtain ⟨first, rest, hletters, hfirst, -⟩ := isIdentifier_iff.1 hname
    rw [hletters] at hc
    obtain rfl : first = c := Option.some.inj hc
    have hgo : Mark.dot.extend? first = none := rfl
    simp [Token.extend?, isDigit_eq_false_of_isWordStart hfirst, hgo]
  have hmember := hd.member name.toList
  rw [String.ofList_toList] at hmember
  exact ⟨_, hwhole, hmember⟩

theorem index {i : Tree} (ha : Phrase isType .suffixed a t) (hb : Phrase isType .expression b i) :
    Phrase isType .suffixed (a ++ "[" ++ b ++ "]") (.index t i) := by
  obtain ⟨ts, hts, hd⟩ := ha
  obtain ⟨us, hus, hi⟩ := hb
  have hopen : tokens "[" = some [.mark .openBracket] := rfl
  have hclose : tokens "]" = some [.mark .closeBracket] := rfl
  have hinner := tokens_joined hts (closed_of_derives hts hd) hopen rfl (fun _ => rfl) hus
  have hclosed := (closed_of_derives hus hi).behind hi.ne_nil ts (.mark .openBracket)
  exact ⟨_, tokens_append_closed hinner hclosed hclose rfl, .index hd hi⟩

/-! ### Calls -/

theorem firstArgument {argument : Tree} (ha : Phrase isType .suffixed a t)
    (hb : Phrase isType .expression b argument) :
    Phrase isType .openCall (a ++ "(" ++ b) (.call t [argument]) := by
  obtain ⟨ts, hts, hd⟩ := ha
  obtain ⟨us, hus, hb⟩ := hb
  have hopen : tokens "(" = some [.mark .openParen] := rfl
  have hwhole := tokens_joined hts (closed_of_derives hts hd) hopen rfl (fun _ => rfl) hus
  exact ⟨_, hwhole, .firstArgument hd hb⟩

theorem nextArgument {argument : Tree} {done : List Tree}
    (ha : Phrase isType .openCall a (.call t done)) (hb : Phrase isType .expression b argument) :
    Phrase isType .openCall (a ++ ", " ++ b) (.call t (done ++ [argument])) := by
  obtain ⟨ts, hts, hd⟩ := ha
  obtain ⟨us, hus, hb⟩ := hb
  have hcomma : tokens ", " = some [.mark .comma] := rfl
  have hwhole := tokens_joined hts (closed_of_derives hts hd) hcomma rfl (fun _ => rfl) hus
  exact ⟨_, hwhole, .nextArgument hd hb⟩

theorem closedCall (ha : Phrase isType .openCall a t) : Phrase isType .suffixed (a ++ ")") t := by
  obtain ⟨ts, hts, hd⟩ := ha
  have hclose : tokens ")" = some [.mark .closeParen] := rfl
  exact ⟨_, tokens_append_closed hts (closed_of_derives hts hd) hclose rfl, .closedCall hd⟩

/-- More arguments of a call that has at least one. -/
theorem arguments {texts : List String} {trees : List Tree}
    (hrest : List.Forall₂ (Phrase isType .expression) texts trees) (start : String) {done : List Tree}
    (h : Phrase isType .openCall (start ++ a) (.call t done)) :
    Phrase isType .openCall (start ++ String.intercalate ", " (a :: texts))
      (.call t (done ++ trees)) := by
  induction hrest generalizing start a done with
  | nil => simpa [String.intercalate_singleton] using h
  | @cons b argument texts trees hb _ ih =>
    have hnext := ih (start ++ a ++ ", ") (h.nextArgument hb)
    rw [String.intercalate_cons_cons]
    simpa [String.append_assoc, List.append_assoc] using hnext

/-- **A call with any arguments.** -/
theorem call {texts : List String} {trees : List Tree} (hf : Phrase isType .suffixed a t)
    (harguments : List.Forall₂ (Phrase isType .expression) texts trees) :
    Phrase isType .suffixed (Text.callText a texts) (.call t trees) := by
  cases harguments with
  | nil =>
    obtain ⟨ts, hts, hd⟩ := hf
    have hempty : tokens "()" = some [.mark .openParen, .mark .closeParen] := rfl
    refine ⟨_, ?_, .emptyCall hd⟩
    have htokens := tokens_append_closed hts (closed_of_derives hts hd) hempty rfl
    rwa [show a ++ "()" = Text.callText a [] by
      simp [Text.callText, String.append_assoc, String.intercalate_nil]] at htokens
  | cons hfirst hrest =>
    unfold Text.callText
    exact (arguments hrest _ (hf.firstArgument hfirst)).closedCall

theorem callNamed {name : String} (h : IsName name) {texts : List String} {trees : List Tree}
    (harguments : List.Forall₂ (Phrase isType .expression) texts trees) :
    Phrase isType .suffixed (Text.callText name texts) (.call (.name name) trees) :=
  (Phrase.name h).call harguments

end Phrase

/-! ## Operators and casts -/

/-- **An operator between two operands**, the left one of its level and the right one above it. -/
theorem Unsigned.binary (op : BinaryOp) (hleft : Unsigned isType (.operand (level op)) a left)
    (hright : Unsigned isType (.operand (level op + 1)) b right) :
    Unsigned isType (.operand (level op)) (op.apply a b) (.binary op left right) := by
  obtain ⟨ts, hts, hl, hhead⟩ := hleft
  obtain ⟨us, hus, hr, hhead'⟩ := hright
  obtain ⟨m, hm, hop⟩ : ∃ m : Mark, tokens (" " ++ op.token ++ " ") = some [.mark m] ∧
      m.binary? = some op := by
    cases op <;> exact ⟨_, rfl, rfl⟩
  have hdot : m ≠ .dot := by
    rintro rfl
    cases hop
  have hblank : (" " ++ op.token ++ " ").toList.head?.all startsApart = true := by
    cases op <;> rfl
  have hbase := tokens_append_closed hts (closed_of_derives hts hl) hm hblank
  have hwhole := tokens_append_unsigned hdot hbase hus hhead'
  refine ⟨_, ?_, .binary hop hl hr, ?_⟩
  · rw [← hwhole]
    change tokens (a ++ " " ++ op.token ++ " " ++ b) = _
    simp only [String.append_assoc]
  · rwa [Reader.Derives.head?_append hl.ne_nil]

/-- An operator between two operands without operators. -/
theorem Phrase.binary (op : BinaryOp) (hleft : Unsigned isType (.operand unaryLevel) a left)
    (hright : Unsigned isType (.operand unaryLevel) b right) :
    Phrase isType .expression (op.apply a b) (.binary op left right) := by
  have hlevel := level_lt_unaryLevel op
  have hbinary := Unsigned.binary op (hleft.lower (by omega) (Nat.le_refl _))
    (hright.lower (by omega) (Nat.le_refl _))
  exact hbinary.phrase.ofOperand (one_le_level op) (by omega)

/-- **An operator behind its operand**, which is a phrase with suffixes. -/
theorem Phrase.trailing (op : UnaryOp) (hop : op.followsOperand = true)
    (h : Phrase isType .suffixed text t) : Phrase isType .suffixed (op.apply text) (.unary op t) := by
  obtain ⟨ts, hts, hd⟩ := h
  obtain ⟨m, hm, hmark⟩ : ∃ m : Mark, tokens op.token = some [.mark m] ∧ m.trailing? = some op := by
    cases op <;> first | exact ⟨_, rfl, rfl⟩ | cases hop
  have hsign : op.token.toList.head?.all startsApart = true := by cases op <;> rfl
  have hwhole := tokens_append_closed hts (closed_of_derives hts hd) hm hsign
  refine ⟨_, ?_, .trailing hmark hd⟩
  rw [← hwhole, UnaryOp.apply, hop, if_pos rfl]

/-- **An operator before its operand**, which may start with a cast. -/
theorem Phrase.leading (op : UnaryOp) (hop : op.followsOperand = false)
    (h : Unsigned isType (.operand unaryLevel) text t) :
    Phrase isType (.operand unaryLevel) (op.apply text) (.unary op t) := by
  obtain ⟨ts, hts, hd, hhead⟩ := h
  obtain ⟨m, hm, hmark⟩ : ∃ m : Mark, tokens op.token = some ([] ++ [.mark m]) ∧
      m.leading? = some (.unary op) := by
    cases op <;> first | exact ⟨_, rfl, rfl⟩ | cases hop
  have hdot : m ≠ .dot := by
    rintro rfl
    cases hmark
  have hwhole := tokens_append_unsigned hdot hm hts hhead
  refine ⟨_, ?_, .leading hmark hd⟩
  rw [UnaryOp.apply, hop, if_neg nofun, hwhole]
  rfl

/-- **The conditional operator.** -/
theorem Phrase.conditional {c accept reject : String} {tc ta tr : Tree}
    (hc : Phrase isType (.operand 1) c tc) (ha : Phrase isType .expression accept ta)
    (hr : Phrase isType .expression reject tr) :
    Phrase isType .expression (Text.conditionalText c accept reject) (.conditional tc ta tr) := by
  obtain ⟨ts, hts, hc⟩ := hc
  obtain ⟨us, hus, ha⟩ := ha
  obtain ⟨vs, hvs, hr⟩ := hr
  have hquestion : tokens " ? " = some [.mark .question] := rfl
  have hcolon : tokens " : " = some [.mark .colon] := rfl
  have haccept := tokens_joined hts (closed_of_derives hts hc) hquestion rfl (fun _ => rfl) hus
  have hclosed := (closed_of_derives hus ha).behind ha.ne_nil ts (.mark .question)
  have hwhole := tokens_joined haccept hclosed hcolon rfl (fun _ => rfl) hvs
  exact ⟨_, hwhole, .conditional hc ha hr⟩

/-- The tokens of a cast without its operand. -/
theorem tokens_cast {type : String} (htype : IsIdentifier type) :
    tokens ("(" ++ type ++ ")") =
      some [.mark .openParen, .word type.toList, .mark .closeParen] := by
  have hopen : tokens "(" = some ([] ++ [.mark .openParen]) := rfl
  have hclose : tokens ")" = some [.mark .closeParen] := rfl
  have hinner := tokens_append_mark hopen htype fun _ _ => rfl
  have hclosed : Closed ([.mark .openParen] ++ [.word type.toList]) :=
    (closed_of_closes htype List.getLast?_singleton rfl).append nofun
  exact tokens_append_closed hinner hclosed hclose rfl

/-- What follows a cast is read on its own. -/
theorem tokens_behind_cast {type : String} (htype : IsIdentifier type) (rest : String) :
    tokens ("(" ++ type ++ ")" ++ rest) = (tokens rest).map
      ([.mark .openParen, .word type.toList, .mark .closeParen] ++ ·) := by
  have hcast := tokens_cast htype
  unfold tokens at hcast ⊢
  rw [String.toList_append]
  refine scan_append hcast fun last hlast c _ => ?_
  obtain rfl : Token.mark .closeParen = last := Option.some.inj hlast
  rfl

/-- **A cast before an operand.** -/
theorem Unsigned.cast (type : String) (htype : IsIdentifier type) (hword : isType type.toList = true)
    (h : Phrase isType (.operand unaryLevel) text t) :
    Unsigned isType (.operand unaryLevel) ("(" ++ type ++ ")" ++ text) (castTree type t) := by
  obtain ⟨ts, hts, hd⟩ := h
  have hcast := hd.cast hword
  rw [String.ofList_toList] at hcast
  refine ⟨_, ?_, hcast, rfl⟩
  rw [tokens_behind_cast htype, hts]
  rfl

/-- A text that starts with a cast is read so, whatever follows. -/
theorem startsCast_of_tokens {type rest : String} (htype : IsIdentifier type)
    (hword : isType type.toList = true) {ts : List Token}
    (h : tokens ("(" ++ type ++ ")" ++ rest) = some ts) : startsCast isType ts = true := by
  rw [tokens_behind_cast htype] at h
  obtain ⟨us, -, rfl⟩ := Option.map_eq_some_iff.1 h
  exact hword

end CrossShader.Reader.Cast
