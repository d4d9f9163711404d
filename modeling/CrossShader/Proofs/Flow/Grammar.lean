import CrossShader.Proofs.Reader.Token
import CrossShader.Text.Blank
import Mathlib.Data.List.Basic

/-!
# The statement grammar

Statements of the C-like targets, read from their text alone.  Conditions, labels and statements without
control flow are opaque; line breaks and indentation do not matter.

* `Flow`, `Group` — statement trees, and the cases of a switch that share a body.
* `Piece`, `State.next`, `scan`, `pieces` — a text as braces, keywords, and opaque parts.
* `headerParts` — the parts of a `for` header.
* `Derives` — the grammar on pieces; bodies stand in braces.
* `statement`, `body`, `groups` — the parser; `Derives.found` — whatever the grammar derives is found, so
  the grammar is unambiguous (`Derives.body_unique`).
* `Reads` — what a text says.
-/

set_option autoImplicit false

namespace CrossShader

open Reader (isWordChar)
open Text

mutual
/-- A statement as its control flow; texts are those of conditions, selectors and simple statements. -/
inductive Flow where
  | simple (text : String)
  | block (body : List Flow)
  | ifElse (condition : String) (accept reject : List Flow)
  | forLoop (start condition : Option String) (steps : List String) (body : List Flow)
  | whileLoop (condition : String) (body : List Flow)
  | doWhile (body : List Flow) (condition : String)
  | switch (selector : String) (groups : List Group)
  | breakLoop
  | continueLoop
  | ret (value : Option String)
  | discard

/-- Cases that share a body: the texts of their labels, none for the default, and the body. -/
inductive Group where
  | mk (labels : List (Option String)) (body : List Flow)
end

namespace Flow

/-! ## Pieces -/

/-- The keywords before a text in parentheses. -/
inductive Keyword where
  | ifWord
  | forWord
  | whileWord
  | switchWord
  deriving DecidableEq, Repr

/-- The pieces that statements are made of. -/
inductive Piece where
  | openBrace
  | closeBrace
  | elseWord
  | doWord
  | returnWord
  /-- A keyword with its text in parentheses. -/
  | head (keyword : Keyword) (text : String)
  /-- A label of a case; none for the default. -/
  | label (text : Option String)
  /-- A text up to its semicolon. -/
  | statement (text : String)
  deriving DecidableEq, Repr

/-- What a word means at the start of a piece. -/
inductive Role where
  | head (keyword : Keyword)
  | alone (piece : Piece)
  | caseLabel
  | defaultLabel

/-- The words that do not start an opaque text. -/
def roles : List (String × Role) :=
  [("if", .head .ifWord), ("for", .head .forWord), ("while", .head .whileWord),
   ("switch", .head .switchWord), ("else", .alone .elseWord), ("do", .alone .doWord),
   ("return", .alone .returnWord), ("case", .caseLabel), ("default", .defaultLabel)]

/-- What a reader is in the middle of. -/
inductive State where
  | start
  | word (letters : List Char)
  | text (chars : List Char)
  | opening (keyword : Keyword)
  | parens (keyword : Keyword) (depth : Nat) (chars : List Char)
  | label (chars : List Char)
  | colon
  deriving DecidableEq, Repr

namespace State

/-- A step of the reader: where it goes on, and the pieces that are complete. -/
abbrev Step := Option (State × List Piece)

/-- The first character of a piece. -/
def atStart (c : Char) : Step :=
  if isBlank c then some (.start, [])
  else if c = '\x7b' then some (.start, [.openBrace])
  else if c = '\x7d' then some (.start, [.closeBrace])
  else if c = ';' then some (.start, [.statement ""])
  else if isWordChar c then some (.word [c], [])
  else some (.text [c], [])

/-- A character of an opaque text. -/
def inText (chars : List Char) (c : Char) : Step :=
  if c = ';' then some (.start, [.statement (String.ofList chars)])
  else if c = '\x7b' ∨ c = '\x7d' then none
  else some (.text (chars ++ [c]), [])

/-- A character before the parenthesis of a head. -/
def beforeParens (k : Keyword) (c : Char) : Step :=
  if isBlank c then some (.opening k, [])
  else if c = '(' then some (.parens k 0 [], [])
  else none

/-- A character in the parentheses of a head, `depth` of whose own parentheses are open. -/
def inParens (k : Keyword) (depth : Nat) (chars : List Char) (c : Char) : Step :=
  if c = '(' then some (.parens k (depth + 1) (chars ++ [c]), [])
  else if c = ')' then
    match depth with
    | 0 => some (.start, [.head k (String.ofList chars)])
    | depth + 1 => some (.parens k depth (chars ++ [c]), [])
  else some (.parens k depth (chars ++ [c]), [])

/-- A character of a label. -/
def inLabel (chars : List Char) (c : Char) : Step :=
  if c = ':' then some (.start, [.label (some (String.ofList chars))])
  else if isBlank c ∧ chars = [] then some (.label [], [])
  else some (.label (chars ++ [c]), [])

/-- A character behind the word of the default label. -/
def beforeColon (c : Char) : Step :=
  if c = ':' then some (.start, [.label none])
  else if isBlank c then some (.colon, [])
  else none

/-- The first character behind a word. -/
def afterWord (letters : List Char) (c : Char) : Step :=
  match roles.lookup (String.ofList letters) with
  | none => inText letters c
  | some (.head k) => beforeParens k c
  | some (.alone p) => (atStart c).map fun (s, ps) => (s, p :: ps)
  | some .caseLabel => inLabel [] c
  | some .defaultLabel => beforeColon c

/-- The next character. -/
def next : State → Char → Step
  | .start, c => atStart c
  | .word letters, c =>
    if isWordChar c then some (.word (letters ++ [c]), []) else afterWord letters c
  | .text chars, c => inText chars c
  | .opening k, c => beforeParens k c
  | .parens k depth chars, c => inParens k depth chars c
  | .label chars, c => inLabel chars c
  | .colon, c => beforeColon c

end State

/-- Read characters: where the reader is then, and the complete pieces. -/
def scan (s : State) : List Char → State.Step
  | [] => some (s, [])
  | c :: cs =>
    match s.next c with
    | none => none
    | some (s', ps) => (scan s' cs).map fun (s'', qs) => (s'', ps ++ qs)

/-- The pieces of a text, if the text does not end within one. -/
def pieces (text : String) : Option (List Piece) :=
  match scan .start text.toList with
  | some (.start, ps) => some ps
  | _ => none

/-- **Texts are read piece by piece**: one goes on where the other one stops. -/
theorem scan_append {s s' s'' : State} {cs ds : List Char} {ps qs : List Piece}
    (hcs : scan s cs = some (s', ps)) (hds : scan s' ds = some (s'', qs)) :
    scan s (cs ++ ds) = some (s'', ps ++ qs) := by
  induction cs generalizing s ps with
  | nil =>
    cases hcs
    exact hds
  | cons c cs ih =>
    rw [scan] at hcs
    rw [List.cons_append, scan]
    cases hnext : s.next c with
    | none =>
      rw [hnext] at hcs
      cases hcs
    | some step =>
      obtain ⟨middle, first⟩ := step
      rw [hnext] at hcs
      obtain ⟨⟨s₁, ps₁⟩, hrest, heq⟩ := Option.map_eq_some_iff.1 hcs
      cases heq
      simp only [ih hrest, Option.map_some, List.append_assoc]

/-! ## Headers and opaque texts -/

/-- An optional part of a header. -/
def part? (chars : List Char) : Option String :=
  if chars = [] then none else some (String.ofList chars)

/-- Split at commas outside of parentheses, where `depth` parentheses are open. -/
def splitCommas (depth : Nat) : List Char → List (List Char)
  | [] => [[]]
  | c :: cs =>
    if c = ',' ∧ depth = 0 then [] :: splitCommas 0 cs
    else
      let depth' := if c = '(' then depth + 1 else if c = ')' then depth - 1 else depth
      match splitCommas depth' cs with
      | [] => [[c]]
      | first :: rest => (c :: first) :: rest

/-- The steps of a header. -/
def steps (chars : List Char) : List String :=
  if chars = [] then []
  else (splitCommas 0 chars).map fun part => String.ofList (trimChars part)

/-- The start, the condition and the steps of a `for` header. -/
def headerParts (text : String) : Option (Option String × Option String × List String) :=
  match (text.toList.splitOn ';').map trimChars with
  | [start, condition, step] => some (part? start, part? condition, steps step)
  | _ => none

/-- A statement without parts: a jump, or any other opaque text. -/
def ofText (text : String) : Flow :=
  if text = "break" then .breakLoop
  else if text = "continue" then .continueLoop
  else if text = "discard" then .discard
  else .simple text

/-! ## The grammar -/

/-- What the grammar derives. -/
inductive Part where
  | statement (f : Flow)
  | body (fs : List Flow)
  | groups (gs : List Group)

open Piece in
/-- The statements of the targets.  The branch behind `else` is a block or another `if`, and cases without
a body of their own share the body behind the next label. -/
inductive Derives : List Piece → Part → Prop
  | done : Derives [] (.body [])
  | next {ps qs : List Piece} {f : Flow} {fs : List Flow} :
      Derives ps (.statement f) → Derives qs (.body fs) → Derives (ps ++ qs) (.body (f :: fs))
  | simple {text : String} : text ≠ "" → Derives [statement text] (.statement (ofText text))
  | ret {text : String} : text ≠ "" →
      Derives [returnWord, statement text] (.statement (.ret (some text)))
  | retNone : Derives [returnWord, statement ""] (.statement (.ret none))
  | block {ps : List Piece} {fs : List Flow} : Derives ps (.body fs) →
      Derives (openBrace :: (ps ++ [closeBrace])) (.statement (.block fs))
  | ifOnly {condition : String} {ps : List Piece} {accept : List Flow} : Derives ps (.body accept) →
      Derives (head .ifWord condition :: openBrace :: (ps ++ [closeBrace]))
        (.statement (.ifElse condition accept []))
  | ifElse {condition : String} {ps qs : List Piece} {accept reject : List Flow} :
      Derives ps (.body accept) → Derives qs (.body reject) →
      Derives (head .ifWord condition :: openBrace ::
          (ps ++ closeBrace :: elseWord :: openBrace :: (qs ++ [closeBrace])))
        (.statement (.ifElse condition accept reject))
  | elseIf {condition condition' : String} {ps qs : List Piece} {accept accept' reject' : List Flow} :
      Derives ps (.body accept) →
      Derives (head .ifWord condition' :: qs) (.statement (.ifElse condition' accept' reject')) →
      Derives (head .ifWord condition :: openBrace ::
          (ps ++ closeBrace :: elseWord :: head .ifWord condition' :: qs))
        (.statement (.ifElse condition accept [.ifElse condition' accept' reject']))
  | forLoop {header : String} {start condition : Option String} {steps : List String}
      {ps : List Piece} {fs : List Flow} : headerParts header = some (start, condition, steps) →
      Derives ps (.body fs) →
      Derives (head .forWord header :: openBrace :: (ps ++ [closeBrace]))
        (.statement (.forLoop start condition steps fs))
  | whileLoop {condition : String} {ps : List Piece} {fs : List Flow} : Derives ps (.body fs) →
      Derives (head .whileWord condition :: openBrace :: (ps ++ [closeBrace]))
        (.statement (.whileLoop condition fs))
  | doWhile {condition : String} {ps : List Piece} {fs : List Flow} : Derives ps (.body fs) →
      Derives (doWord :: openBrace :: (ps ++ [closeBrace, head .whileWord condition, statement ""]))
        (.statement (.doWhile fs condition))
  | switch {selector : String} {ps : List Piece} {gs : List Group} : Derives ps (.groups gs) →
      Derives (head .switchWord selector :: openBrace :: (ps ++ [closeBrace]))
        (.statement (.switch selector gs))
  | noGroup : Derives [] (.groups [])
  | group {labels : List (Option String)} {ps qs : List Piece} {fs : List Flow} {gs : List Group} :
      labels ≠ [] → Derives ps (.body fs) → Derives qs (.groups gs) → (fs = [] → gs = []) →
      Derives (labels.map label ++ (ps ++ qs)) (.groups (.mk labels fs :: gs))

/-! ## The parser -/

/-- What a part of the parser finds, and the pieces behind it. -/
abbrev Found (α : Type) := Option (α × List Piece)

/-- Statements between braces. -/
def braced (read : List Piece → Found (List Flow)) : List Piece → Found (List Flow)
  | .openBrace :: ps =>
    match read ps with
    | some (fs, .closeBrace :: rest) => some (fs, rest)
    | _ => none
  | _ => none

/-- The labels in front, and the pieces behind them. -/
def labels : List Piece → List (Option String) × List Piece
  | .label l :: ps => (l :: (labels ps).1, (labels ps).2)
  | ps => ([], ps)

/-- Whether a body ends here. -/
def endsBody : List Piece → Bool
  | [] | .closeBrace :: _ | .label _ :: _ => true
  | _ => false

mutual
/-- A statement, for texts of at most `fuel` pieces. -/
def statement (fuel : Nat) (ps : List Piece) : Found Flow :=
  match fuel with
  | 0 => none
  | n + 1 =>
    match ps with
    | .statement text :: rest => if text = "" then none else some (ofText text, rest)
    | .returnWord :: .statement text :: rest =>
      some (.ret (if text = "" then none else some text), rest)
    | .openBrace :: rest =>
      (braced (body n) (.openBrace :: rest)).map fun (fs, rest) => (.block fs, rest)
    | .head .ifWord condition :: rest =>
      match braced (body n) rest with
      | some (accept, .elseWord :: .head .ifWord condition' :: rest') =>
        (statement n (.head .ifWord condition' :: rest')).map fun (f, rest) =>
          (.ifElse condition accept [f], rest)
      | some (accept, .elseWord :: rest') =>
        (braced (body n) rest').map fun (reject, rest) => (.ifElse condition accept reject, rest)
      | some (accept, rest') => some (.ifElse condition accept [], rest')
      | none => none
    | .head .forWord header :: rest =>
      match headerParts header with
      | some (start, condition, steps) =>
        (braced (body n) rest).map fun (fs, rest) => (.forLoop start condition steps fs, rest)
      | none => none
    | .head .whileWord condition :: rest =>
      (braced (body n) rest).map fun (fs, rest) => (.whileLoop condition fs, rest)
    | .doWord :: rest =>
      match braced (body n) rest with
      | some (fs, .head .whileWord condition :: .statement text :: rest') =>
        if text = "" then some (.doWhile fs condition, rest') else none
      | _ => none
    | .head .switchWord selector :: .openBrace :: rest =>
      match groups n rest with
      | some (gs, .closeBrace :: rest') => some (.switch selector gs, rest')
      | _ => none
    | _ => none
termination_by structural fuel

/-- The statements up to a closing brace or a label. -/
def body (fuel : Nat) (ps : List Piece) : Found (List Flow) :=
  match fuel with
  | 0 => none
  | n + 1 =>
    if endsBody ps then some ([], ps)
    else
      match statement n ps with
      | some (f, rest) => (body n rest).map fun (fs, rest) => (f :: fs, rest)
      | none => none
termination_by structural fuel

/-- The cases of a switch. -/
def groups (fuel : Nat) (ps : List Piece) : Found (List Group) :=
  match fuel with
  | 0 => none
  | n + 1 =>
    match labels ps with
    | ([], _) => some ([], ps)
    | (l :: ls, rest) =>
      match body n rest with
      | some (fs, rest') => (groups n rest').map fun (gs, rest) => (.mk (l :: ls) fs :: gs, rest)
      | none => none
termination_by structural fuel
end

/-- Whether a statement may start with a piece. -/
def Piece.startsStatement : Piece → Bool
  | .closeBrace | .elseWord | .label _ => false
  | .openBrace | .doWord | .returnWord | .head .. | .statement _ => true

theorem Derives.statement_start {ps : List Piece} {f : Flow} (h : Derives ps (.statement f)) :
    ∃ p qs, ps = p :: qs ∧ p.startsStatement = true := by
  cases h <;> exact ⟨_, _, rfl, rfl⟩

theorem Derives.groups_nil {ps : List Piece} (h : Derives ps (.groups [])) : ps = [] := by
  cases h
  rfl

/-- What follows a statement of a body does not start with `else`. -/
theorem Derives.body_head {ps : List Piece} {fs : List Flow} (h : Derives ps (.body fs))
    {rest : List Piece} (hrest : endsBody rest = true) : (ps ++ rest).head? ≠ some .elseWord := by
  cases h with
  | done =>
    cases rest with
    | nil => nofun
    | cons p rest => cases p <;> simp_all [endsBody]
  | next hf _ =>
    obtain ⟨p, qs, rfl, hp⟩ := hf.statement_start
    cases p <;> simp_all [Piece.startsStatement]

theorem Derives.endsBody_eq_false {ps : List Piece} {f : Flow} (h : Derives ps (.statement f))
    (rest : List Piece) : endsBody (ps ++ rest) = false := by
  obtain ⟨p, qs, rfl, hp⟩ := h.statement_start
  cases p <;> simp_all [Piece.startsStatement, endsBody]

theorem Derives.endsBody_groups {ps : List Piece} {gs : List Group} (h : Derives ps (.groups gs))
    {rest : List Piece} (hrest : endsBody rest = true) : endsBody (ps ++ rest) = true := by
  cases h with
  | noGroup => exact hrest
  | @group labels _ _ _ _ hlabels _ _ _ =>
    obtain ⟨l, ls, rfl⟩ := List.exists_cons_of_ne_nil hlabels
    rfl

/-- Behind the labels of a case stands a statement, or the end of the switch. -/
theorem Derives.head_ne_label {ps qs : List Piece} {fs : List Flow} {gs : List Group}
    (hfs : Derives ps (.body fs)) (hgs : Derives qs (.groups gs)) (hlast : fs = [] → gs = [])
    (rest : List Piece) (l : Option String) :
    (ps ++ (qs ++ .closeBrace :: rest)).head? ≠ some (.label l) := by
  cases hfs with
  | done =>
    rw [hlast rfl] at hgs
    rw [hgs.groups_nil]
    nofun
  | next hf _ =>
    obtain ⟨p, ps', rfl, hp⟩ := hf.statement_start
    cases p <;> simp_all [Piece.startsStatement]

theorem labels_append (ls : List (Option String)) {rest : List Piece}
    (hrest : ∀ l, rest.head? ≠ some (.label l)) : labels (ls.map .label ++ rest) = (ls, rest) := by
  induction ls with
  | nil =>
    cases rest with
    | nil => rfl
    | cons p rest =>
      cases p with
      | label l => exact absurd rfl (hrest l)
      | openBrace | closeBrace | elseWord | doWord | returnWord | head | statement => rfl
  | cons l ls ih => simp [labels, ih]

theorem braced_eq {read : List Piece → Found (List Flow)} {ps rest : List Piece} {fs : List Flow}
    (h : read (ps ++ .closeBrace :: rest) = some (fs, .closeBrace :: rest)) :
    braced read (.openBrace :: (ps ++ .closeBrace :: rest)) = some (fs, rest) := by
  simp [braced, h]

/-- What the parser has to do on the pieces of a part, whatever follows. -/
def IsFound (ps : List Piece) : Part → Prop
  | .statement f => ∀ fuel rest, ps.length ≤ fuel → rest.head? ≠ some .elseWord →
      statement fuel (ps ++ rest) = some (f, rest)
  | .body fs => ∀ fuel rest, ps.length < fuel → endsBody rest = true →
      body fuel (ps ++ rest) = some (fs, rest)
  | .groups gs => ∀ fuel rest, ps.length < fuel →
      groups fuel (ps ++ .closeBrace :: rest) = some (gs, .closeBrace :: rest)

/-- A statement has a first piece, so there is fuel for it. -/
theorem IsFound.of_step {p : Piece} {ps : List Piece} {f : Flow}
    (h : ∀ n rest, ps.length ≤ n → rest.head? ≠ some .elseWord →
      statement (n + 1) (p :: (ps ++ rest)) = some (f, rest)) : IsFound (p :: ps) (.statement f) := by
  intro fuel rest hfuel hrest
  cases fuel with
  | zero => cases hfuel
  | succ n => exact h n rest (Nat.le_of_succ_le_succ hfuel) hrest

/-- **Whatever the grammar derives is found.** -/
theorem Derives.found {ps : List Piece} {part : Part} (h : Derives ps part) : IsFound ps part := by
  -- each rule takes one unit of fuel, and the pieces of its parts are fewer than its own
  induction h with
  | done =>
    intro fuel rest hfuel hrest
    cases fuel with
    | zero => cases hfuel
    | succ n => simp [body, hrest]
  | @next ps qs f fs hf hfs ihf ihfs =>
    intro fuel rest hfuel hrest
    obtain ⟨p, ps', rfl, -⟩ := hf.statement_start
    rw [List.length_append, List.length_cons] at hfuel
    cases fuel with
    | zero => omega
    | succ n =>
      have hfirst := ihf n (qs ++ rest) (by rw [List.length_cons]; omega) (hfs.body_head hrest)
      have hothers := ihfs n rest (by omega) hrest
      rw [List.append_assoc, body, hf.endsBody_eq_false, hfirst]
      simp [hothers]
  | simple htext =>
    refine .of_step fun n rest _ _ => ?_
    simp [statement, htext]
  | ret htext =>
    refine .of_step fun n rest _ _ => ?_
    simp [statement, htext]
  | retNone =>
    refine .of_step fun n rest _ _ => ?_
    simp [statement]
  | @block ps fs _ ih =>
    refine .of_step fun n rest hn _ => ?_
    simp only [List.length_cons, List.length_append, List.length_nil] at hn
    have hbody := braced_eq (ih n (.closeBrace :: rest) (by omega) rfl)
    simp [statement, hbody]
  | @ifOnly condition ps accept _ ih =>
    refine .of_step fun n rest hn hrest => ?_
    simp only [List.length_cons, List.length_append, List.length_nil] at hn
    have hbody := braced_eq (ih n (.closeBrace :: rest) (by omega) rfl)
    simp only [List.cons_append, List.append_assoc, List.nil_append, statement, hbody]
    -- what follows an `if` without `else` is no `else`, so the third alternative is taken
    split
    · rename_i heq
      cases heq
      exact absurd rfl hrest
    · rename_i heq
      cases heq
      exact absurd rfl hrest
    · rename_i heq
      cases heq
      rfl
    · rename_i heq
      cases heq
  | @ifElse condition ps qs accept reject _ _ iha ihr =>
    refine .of_step fun n rest hn _ => ?_
    simp only [List.length_cons, List.length_append, List.length_nil] at hn
    have haccept := braced_eq (iha n
      (.closeBrace :: .elseWord :: .openBrace :: (qs ++ .closeBrace :: rest)) (by omega) rfl)
    have hreject := braced_eq (ihr n (.closeBrace :: rest) (by omega) rfl)
    simp [statement, haccept, hreject]
  | @elseIf condition condition' ps qs accept accept' reject' _ _ iha ihr =>
    refine .of_step fun n rest hn hrest => ?_
    simp only [List.length_cons, List.length_append] at hn
    have haccept := braced_eq (iha n
      (.closeBrace :: .elseWord :: .head .ifWord condition' :: (qs ++ rest)) (by omega) rfl)
    have hreject := ihr n rest (by rw [List.length_cons]; omega) hrest
    rw [List.cons_append] at hreject
    simp [statement, haccept, hreject]
  | @forLoop header start condition steps ps fs hheader _ ih =>
    refine .of_step fun n rest hn _ => ?_
    simp only [List.length_cons, List.length_append, List.length_nil] at hn
    have hbody := braced_eq (ih n (.closeBrace :: rest) (by omega) rfl)
    simp [statement, hheader, hbody]
  | @whileLoop condition ps fs _ ih =>
    refine .of_step fun n rest hn _ => ?_
    simp only [List.length_cons, List.length_append, List.length_nil] at hn
    have hbody := braced_eq (ih n (.closeBrace :: rest) (by omega) rfl)
    simp [statement, hbody]
  | @doWhile condition ps fs _ ih =>
    refine .of_step fun n rest hn _ => ?_
    simp only [List.length_cons, List.length_append, List.length_nil] at hn
    have hbody := braced_eq (ih n
      (.closeBrace :: .head .whileWord condition :: .statement "" :: rest) (by omega) rfl)
    simp [statement, hbody]
  | @switch selector ps gs _ ih =>
    refine .of_step fun n rest hn _ => ?_
    simp only [List.length_cons, List.length_append, List.length_nil] at hn
    have hgroups := ih n rest (by omega)
    simp [statement, hgroups]
  | noGroup =>
    intro fuel rest hfuel
    cases fuel with
    | zero => cases hfuel
    | succ n => simp [groups, labels]
  | @group ls ps qs fs gs hls hfs hgs hlast ihfs ihgs =>
    intro fuel rest hfuel
    obtain ⟨l, ls, rfl⟩ := List.exists_cons_of_ne_nil hls
    simp only [List.length_append, List.length_map, List.length_cons] at hfuel
    cases fuel with
    | zero => omega
    | succ n =>
      have hlabels := labels_append (l :: ls) (hfs.head_ne_label hgs hlast rest)
      have hbody := ihfs n (qs ++ .closeBrace :: rest) (by omega) (hgs.endsBody_groups rfl)
      have hothers := ihgs n rest (by omega)
      rw [List.append_assoc, List.append_assoc, groups, hlabels]
      simp [hbody, hothers]

/-- **The grammar is unambiguous.** -/
theorem Derives.body_unique {ps : List Piece} {fs fs' : List Flow} (h : Derives ps (.body fs))
    (h' : Derives ps (.body fs')) : fs = fs' := by
  have hfound := h.found (ps.length + 1) [] (Nat.lt_succ_self _) rfl
  have hfound' := h'.found (ps.length + 1) [] (Nat.lt_succ_self _) rfl
  rw [hfound] at hfound'
  exact (Prod.mk.inj (Option.some.inj hfound')).1

/-- A text says some statements. -/
def Reads (text : String) (fs : List Flow) : Prop :=
  ∃ ps, pieces text = some ps ∧ Derives ps (.body fs)

/-- A text says at most one thing. -/
theorem Reads.unique {text : String} {fs fs' : List Flow} (h : Reads text fs) (h' : Reads text fs') :
    fs = fs' := by
  obtain ⟨ps, hps, hfs⟩ := h
  obtain ⟨ps', hps', hfs'⟩ := h'
  rw [hps] at hps'
  cases hps'
  exact hfs.body_unique hfs'

end Flow

end CrossShader
