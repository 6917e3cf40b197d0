import Docblock.Span.Pairing

namespace Docblock.Span

def closesBefore (first second : Span) : Bool :=
  first.close.any fun close => close < second.start

theorem closesBefore_iff {first second : Span} {close : Nat}
    (hclose : first.close = some close) :
    first.closesBefore second = true ↔ close < second.start := by
  simp [closesBefore, hclose]

theorem encloses_iff {outer inner : Span} {outerClose innerClose : Nat}
    (houter : outer.close = some outerClose) (hinner : inner.close = some innerClose) :
    outer.encloses inner = true ↔ outer.start < inner.start ∧ innerClose < outerClose := by
  simp [encloses, houter, hinner]

/-- No excluded region holds the token with an index. -/
def Live (excluded : List Span) (index : Nat) : Prop :=
  (excluded.any fun span => span.covers index) = false

theorem live_nil (index : Nat) : Live [] index := rfl

theorem Live.not_covers {excluded : List Span} {index : Nat} (hlive : Live excluded index)
    {span : Span} (hmem : span ∈ excluded) : span.covers index = false := by
  simpa using List.any_eq_false.mp hlive span hmem

variable {language : Language} {markers : MarkerPair} {excluded : List Span}

theorem pairFrom_cons_start {index : Nat} {token : Token} (rest : List Token)
    (hlive : Live excluded index)
    (hstart : Token.isMarker language markers.start token.text = true) :
    pairFrom language markers excluded none index (token :: rest) =
      pairFrom language markers excluded (some index) (index + 1) rest := by
  simp only [Live] at hlive
  simp [pairFrom, hlive, hstart]

theorem pairFrom_cons_close {start index : Nat} {token : Token} (rest : List Token)
    (hlive : Live excluded index)
    (hstart : Token.isMarker language markers.start token.text = false)
    (hclose : Token.isMarker language markers.close token.text = true) :
    pairFrom language markers excluded (some start) index (token :: rest) =
      ⟨start, some index, markers.kind⟩ ::
        pairFrom language markers excluded none (index + 1) rest := by
  simp only [Live] at hlive
  simp [pairFrom, hlive, hstart, hclose]

def Idle (language : Language) (markers : MarkerPair) (excluded : List Span)
    (opened : Option Nat) (index : Nat) (token : Token) : Prop :=
  Live excluded index →
    (Token.isMarker language markers.start token.text = true → opened.isSome) ∧
      (Token.isMarker language markers.start token.text = false →
        Token.isMarker language markers.close token.text = true → opened = none)

theorem idle_of_not_start {token : Token}
    (hstart : Token.isMarker language markers.start token.text = false) (index : Nat) :
    Idle language markers excluded none index token := by
  intro _
  simp [hstart]

theorem idle_of_not_close {token : Token}
    (hclose : Token.isMarker language markers.close token.text = false) (start index : Nat) :
    Idle language markers excluded (some start) index token := by
  intro _
  simp [hclose]

theorem idle_of_covers {span : Span} (hmem : span ∈ excluded) {index : Nat}
    (hcovers : span.covers index = true) (opened : Option Nat) (token : Token) :
    Idle language markers excluded opened index token := by
  intro hlive
  rw [hlive.not_covers hmem] at hcovers
  contradiction

theorem pairFrom_cons_idle {opened : Option Nat} {index : Nat} {token : Token}
    (rest : List Token) (hidle : Idle language markers excluded opened index token) :
    pairFrom language markers excluded opened index (token :: rest) =
      pairFrom language markers excluded opened (index + 1) rest := by
  rw [pairFrom.eq_def]
  cases hlive : excluded.any fun span => span.covers index with
  | true => simp [hlive]
  | false =>
      obtain ⟨hopens, hcloses⟩ := hidle hlive
      cases hstart : Token.isMarker language markers.start token.text with
      | true =>
          obtain ⟨start, rfl⟩ := Option.isSome_iff_exists.mp (hopens hstart)
          simp [hlive, hstart]
      | false =>
          cases hclose : Token.isMarker language markers.close token.text with
          | true =>
              rw [hcloses hstart hclose]
              simp [hlive, hstart, hclose]
          | false => simp [hlive, hstart, hclose]

theorem pairFrom_cons_cases (language : Language) (markers : MarkerPair)
    (excluded : List Span) (opened : Option Nat) (index : Nat) (token : Token)
    (rest : List Token) :
    pairFrom language markers excluded opened index (token :: rest) =
        pairFrom language markers excluded opened (index + 1) rest ∨
      (opened = none ∧ Live excluded index ∧
        pairFrom language markers excluded opened index (token :: rest) =
          pairFrom language markers excluded (some index) (index + 1) rest) ∨
      (∃ start, opened = some start ∧ Live excluded index ∧
        pairFrom language markers excluded opened index (token :: rest) =
          ⟨start, some index, markers.kind⟩ ::
            pairFrom language markers excluded none (index + 1) rest) := by
  by_cases hidle : Idle language markers excluded opened index token
  · exact .inl (pairFrom_cons_idle rest hidle)
  · right
    obtain ⟨hlive, hmarker⟩ := Classical.not_imp.mp hidle
    cases hstart : Token.isMarker language markers.start token.text with
    | true =>
        left
        cases opened with
        | none => exact ⟨rfl, hlive, pairFrom_cons_start rest hlive hstart⟩
        | some start => simp [hstart] at hmarker
    | false =>
        right
        cases hclose : Token.isMarker language markers.close token.text with
        | true =>
            cases opened with
            | none => simp [hstart] at hmarker
            | some start =>
                exact ⟨start, rfl, hlive, pairFrom_cons_close rest hlive hstart hclose⟩
        | false => simp [hstart, hclose] at hmarker

theorem pairFrom_append_of_idle {opened : Option Nat} {index : Nat} {skipped : List Token}
    (rest : List Token)
    (hidle : ∀ entry ∈ skipped.zipIdx index,
      Idle language markers excluded opened entry.2 entry.1) :
    pairFrom language markers excluded opened index (skipped ++ rest) =
      pairFrom language markers excluded opened (index + skipped.length) rest := by
  induction skipped generalizing index with
  | nil => rfl
  | cons token skipped ih =>
      rw [List.zipIdx_cons, List.forall_mem_cons] at hidle
      rw [List.cons_append, pairFrom_cons_idle _ hidle.1, ih hidle.2, List.length_cons,
        Nat.add_right_comm, Nat.add_assoc]

theorem pairFrom_eq_nil {tokens : List Token}
    (hstart : ∀ token ∈ tokens, Token.isMarker language markers.start token.text = false)
    (index : Nat) : pairFrom language markers excluded none index tokens = [] := by
  induction tokens generalizing index with
  | nil => rfl
  | cons token rest ih =>
      rw [List.forall_mem_cons] at hstart
      rw [pairFrom_cons_idle rest (idle_of_not_start hstart.1 index)]
      exact ih hstart.2 (index + 1)

/-- A closed region of a kind with both markers outside the excluded regions. -/
structure Paired (kind : SpanKind) (excluded : List Span) (span : Span) : Prop where
  kind_eq : span.kind = kind
  start_live : Live excluded span.start
  closed : ∃ close, span.close = some close ∧ span.start < close ∧ Live excluded close

theorem Paired.isResolved {kind : SpanKind} {span : Span}
    (hpaired : Paired kind excluded span) : span.isResolved = true := by
  obtain ⟨close, hclose, hlt, -⟩ := hpaired.closed
  simp [Span.isResolved, hclose, hlt]

/-- What is open stands before the tokens that are still to be read. -/
def OpenedBefore (excluded : List Span) (opened : Option Nat) (index : Nat) : Prop :=
  ∀ start ∈ opened, start < index ∧ Live excluded start

theorem openedBefore_none (index : Nat) : OpenedBefore excluded none index := by
  simp [OpenedBefore]

theorem OpenedBefore.succ {opened : Option Nat} {index : Nat}
    (hopened : OpenedBefore excluded opened index) :
    OpenedBefore excluded opened (index + 1) := by
  intro start hstart
  obtain ⟨hlt, hlive⟩ := hopened start hstart
  exact ⟨Nat.lt_succ_of_lt hlt, hlive⟩

private theorem Live.openedBefore {index : Nat} (hlive : Live excluded index) :
    OpenedBefore excluded (some index) (index + 1) := by
  intro start hstart
  obtain rfl : index = start := by simpa using hstart
  exact ⟨Nat.lt_succ_self index, hlive⟩

private theorem paired_of_mem_pairFrom {opened : Option Nat} {index : Nat} {tokens : List Token}
    (hopened : OpenedBefore excluded opened index) {span : Span}
    (hmem : span ∈ pairFrom language markers excluded opened index tokens) :
    Paired markers.kind excluded span := by
  induction tokens generalizing opened index with
  | nil => simp [pairFrom] at hmem
  | cons token rest ih =>
      rcases pairFrom_cons_cases language markers excluded opened index token rest with
        hidle | ⟨-, hlive, hopens⟩ | ⟨start, rfl, hlive, hcloses⟩
      · rw [hidle] at hmem
        exact ih hopened.succ hmem
      · rw [hopens] at hmem
        exact ih hlive.openedBefore hmem
      · rw [hcloses, List.mem_cons] at hmem
        rcases hmem with rfl | hmem
        · obtain ⟨hlt, hstart⟩ := hopened start rfl
          exact ⟨rfl, hstart, index, rfl, hlt, hlive⟩
        · exact ih (openedBefore_none _) hmem

private theorem start_of_mem_pairFrom {opened : Option Nat} {index : Nat} {tokens : List Token}
    {span : Span} (hmem : span ∈ pairFrom language markers excluded opened index tokens) :
    opened = some span.start ∨ index ≤ span.start := by
  induction tokens generalizing opened index with
  | nil => simp [pairFrom] at hmem
  | cons token rest ih =>
      rcases pairFrom_cons_cases language markers excluded opened index token rest with
        hidle | ⟨-, -, hopens⟩ | ⟨start, rfl, -, hcloses⟩
      · rw [hidle] at hmem
        exact (ih hmem).imp_right Nat.le_of_succ_le
      · rw [hopens] at hmem
        rcases ih hmem with heq | hle
        · exact .inr (Nat.le_of_eq (Option.some.inj heq))
        · exact .inr (Nat.le_of_succ_le hle)
      · rw [hcloses, List.mem_cons] at hmem
        rcases hmem with rfl | hmem
        · exact .inl rfl
        · rcases ih hmem with heq | hle
          · contradiction
          · exact .inr (Nat.le_of_succ_le hle)

private theorem pairwise_pairFrom (opened : Option Nat) (index : Nat) (tokens : List Token) :
    (pairFrom language markers excluded opened index tokens).Pairwise
      fun first second => first.closesBefore second = true := by
  induction tokens generalizing opened index with
  | nil => exact List.Pairwise.nil
  | cons token rest ih =>
      rcases pairFrom_cons_cases language markers excluded opened index token rest with
        hidle | ⟨-, -, hopens⟩ | ⟨start, -, -, hcloses⟩
      · rw [hidle]
        exact ih opened (index + 1)
      · rw [hopens]
        exact ih (some index) (index + 1)
      · rw [hcloses, List.pairwise_cons]
        refine ⟨?_, ih none (index + 1)⟩
        intro later hlater
        rcases start_of_mem_pairFrom hlater with heq | hle
        · contradiction
        · exact (closesBefore_iff rfl).mpr hle

theorem paired_of_mem_pair {tokens : List Token} {span : Span}
    (hmem : span ∈ pair language markers excluded tokens) :
    Paired markers.kind excluded span :=
  paired_of_mem_pairFrom (openedBefore_none 0) hmem

theorem pairwise_pair (tokens : List Token) :
    (pair language markers excluded tokens).Pairwise
      fun first second => first.closesBefore second = true :=
  pairwise_pairFrom none 0 tokens

end Docblock.Span
