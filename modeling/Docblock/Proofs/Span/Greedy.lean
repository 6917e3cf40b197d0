import Docblock.Proofs.Span.Pairing
import Mathlib.Data.List.Chain
import Mathlib.Data.Nat.Find

namespace Docblock.Span

/-! The regions that a scan finds are fixed by where the markers stand: the first start
marker is paired with the first end marker behind it, and so on behind that one. -/

section Definitions

variable (language : Language) (markers : MarkerPair) (excluded : List Span)
  (tokens : List Token)

/-- A token outside the excluded regions that is a start marker. -/
def IsStarter (index : Nat) : Prop :=
  Live excluded index ∧ ∃ token, tokens[index]? = some token ∧
    Token.isMarker language markers.start token.text = true

/-- A token outside the excluded regions that is an end marker and no start marker. -/
def IsEnder (index : Nat) : Prop :=
  Live excluded index ∧ ∃ token, tokens[index]? = some token ∧
    Token.isMarker language markers.start token.text = false ∧
    Token.isMarker language markers.close token.text = true

/-- Regions that pair a start marker with the first end marker behind it and pass over none,
neither in front of a region nor behind the last one. -/
structure Greedy (spans : List Span) : Prop where
  kind_eq : ∀ span ∈ spans, span.kind = markers.kind
  paired : ∀ span ∈ spans, ∃ close, span.close = some close ∧
    span.start < close ∧ close < tokens.length ∧
    IsStarter language markers excluded tokens span.start ∧
    IsEnder language markers excluded tokens close
  separate : spans.IsChain fun first second => first.closesBefore second = true
  no_starter_before : ∀ span ∈ spans.head?, ∀ i < span.start,
    ¬ IsStarter language markers excluded tokens i
  no_starter_between : spans.IsChain fun first second =>
    ∀ close ∈ first.close, ∀ i, close < i → i < second.start →
      ¬ IsStarter language markers excluded tokens i
  no_ender_inside : ∀ span ∈ spans, ∀ close ∈ span.close, ∀ i, span.start < i → i < close →
    ¬ IsEnder language markers excluded tokens i
  no_pair_after : ∀ i j, (∀ span ∈ spans.getLast?, ∀ close ∈ span.close, close < i) →
    i < j → IsStarter language markers excluded tokens i →
      ¬ IsEnder language markers excluded tokens j

inductive GreedyFrom : Nat → List Span → Prop where
  | done {index : Nat}
      (hnone : ∀ i j, index ≤ i → i < j → IsStarter language markers excluded tokens i →
        ¬ IsEnder language markers excluded tokens j) :
      GreedyFrom index []
  | region {index start close : Nat} {later : List Span} (hle : index ≤ start)
      (hlt : start < close) (hstart : IsStarter language markers excluded tokens start)
      (hclose : IsEnder language markers excluded tokens close)
      (hbefore : ∀ i, index ≤ i → i < start → ¬ IsStarter language markers excluded tokens i)
      (hinside : ∀ i, start < i → i < close → ¬ IsEnder language markers excluded tokens i)
      (hlater : GreedyFrom (close + 1) later) :
      GreedyFrom index (⟨start, some close, markers.kind⟩ :: later)

end Definitions

variable {language : Language} {markers : MarkerPair} {excluded : List Span}
  {tokens : List Token}

theorem lt_length_of_getElem? {index : Nat} {token : Token} (htoken : tokens[index]? = some token) :
    index < tokens.length := by
  obtain ⟨hlt, -⟩ := List.getElem?_eq_some_iff.mp htoken
  exact hlt

theorem IsEnder.lt_length {index : Nat} (hender : IsEnder language markers excluded tokens index) :
    index < tokens.length := by
  obtain ⟨-, token, htoken, -⟩ := hender
  exact lt_length_of_getElem? htoken

theorem exists_least {property : Nat → Prop} (hexists : ∃ i, property i) :
    ∃ i, property i ∧ ∀ j < i, ¬ property j := by
  classical
  exact ⟨Nat.find hexists, Nat.find_spec hexists, fun j hlt => Nat.find_min hexists hlt⟩

theorem exists_greedyFrom (language : Language) (markers : MarkerPair) (excluded : List Span)
    (tokens : List Token) (index : Nat) :
    ∃ spans, GreedyFrom language markers excluded tokens index spans := by
  induction hgap : tokens.length - index using Nat.strongRecOn generalizing index with
  | ind gap ih =>
      subst hgap
      by_cases hpair : ∃ i j, index ≤ i ∧ i < j ∧
          IsStarter language markers excluded tokens i ∧ IsEnder language markers excluded tokens j
      · obtain ⟨i, j, hle, hlt, hi, hj⟩ := hpair
        obtain ⟨start, ⟨hindex, hstart⟩, hfirst⟩ :=
          exists_least (show ∃ i, index ≤ i ∧ IsStarter language markers excluded tokens i from
            ⟨i, hle, hi⟩)
        have hstart_le : start ≤ i := Nat.le_of_not_lt fun hbefore => hfirst i hbefore ⟨hle, hi⟩
        obtain ⟨close, ⟨hstart_lt, hclose⟩, hnearest⟩ :=
          exists_least (show ∃ j, start < j ∧ IsEnder language markers excluded tokens j from
            ⟨j, by omega, hj⟩)
        have hbound := hclose.lt_length
        obtain ⟨later, hlater⟩ := ih (tokens.length - (close + 1)) (by omega) (close + 1) rfl
        refine ⟨_, .region hindex hstart_lt hstart hclose ?_ ?_ hlater⟩
        · intro k hk hbefore hstarter
          exact hfirst k hbefore ⟨hk, hstarter⟩
        · intro k hk hbefore hender
          exact hnearest k hbefore ⟨hk, hender⟩
      · refine ⟨[], .done ?_⟩
        intro i j hle hlt hi hj
        exact hpair ⟨i, j, hle, hlt, hi, hj⟩

theorem drop_eq_cons {index : Nat} {token : Token} (htoken : tokens[index]? = some token) :
    tokens.drop index = token :: tokens.drop (index + 1) := by
  obtain ⟨hlt, rfl⟩ := List.getElem?_eq_some_iff.mp htoken
  exact List.drop_eq_getElem_cons hlt

theorem pairFrom_drop_idle {opened : Option Nat} {index stop : Nat} (hle : index ≤ stop)
    (hidle : ∀ i token, index ≤ i → i < stop → tokens[i]? = some token →
      Idle language markers excluded opened i token) :
    pairFrom language markers excluded opened index (tokens.drop index) =
      pairFrom language markers excluded opened stop (tokens.drop stop) := by
  induction stop, hle using Nat.le_induction with
  | base => rfl
  | succ stop hle ih =>
      rw [ih fun i token hi hlt => hidle i token hi (Nat.lt_succ_of_lt hlt)]
      cases htoken : tokens[stop]? with
      | none =>
          have hlength := List.getElem?_eq_none_iff.mp htoken
          rw [List.drop_eq_nil_of_le hlength, List.drop_eq_nil_of_le (Nat.le_succ_of_le hlength)]
          rfl
      | some token =>
          rw [drop_eq_cons htoken]
          exact pairFrom_cons_idle _ (hidle stop token hle (Nat.lt_succ_self stop) htoken)

theorem pairFrom_drop_length (opened : Option Nat) (index : Nat) :
    pairFrom language markers excluded opened index (tokens.drop tokens.length) = [] := by
  rw [List.drop_length]
  rfl

theorem pairFrom_drop_starter {index : Nat}
    (hstarter : IsStarter language markers excluded tokens index) :
    pairFrom language markers excluded none index (tokens.drop index) =
      pairFrom language markers excluded (some index) (index + 1) (tokens.drop (index + 1)) := by
  obtain ⟨hlive, token, htoken, hmarker⟩ := hstarter
  rw [drop_eq_cons htoken]
  exact pairFrom_cons_start _ hlive hmarker

private theorem pairFrom_drop_ender {start index : Nat}
    (hender : IsEnder language markers excluded tokens index) :
    pairFrom language markers excluded (some start) index (tokens.drop index) =
      ⟨start, some index, markers.kind⟩ ::
        pairFrom language markers excluded none (index + 1) (tokens.drop (index + 1)) := by
  obtain ⟨hlive, token, htoken, hother, hmarker⟩ := hender
  rw [drop_eq_cons htoken]
  exact pairFrom_cons_close _ hlive hother hmarker

theorem idle_of_not_isStarter {index : Nat} {token : Token} (htoken : tokens[index]? = some token)
    (hstarter : ¬ IsStarter language markers excluded tokens index) :
    Idle language markers excluded none index token := by
  intro hlive
  refine ⟨fun hmarker => absurd ⟨hlive, token, htoken, hmarker⟩ hstarter, fun _ _ => rfl⟩

theorem idle_of_not_isEnder {start index : Nat} {token : Token}
    (htoken : tokens[index]? = some token)
    (hender : ¬ IsEnder language markers excluded tokens index) :
    Idle language markers excluded (some start) index token := by
  intro hlive
  refine ⟨fun _ => rfl, fun hother hmarker => ?_⟩
  exact absurd ⟨hlive, token, htoken, hother, hmarker⟩ hender

private theorem pairFrom_drop_eq_nil {index : Nat}
    (hnone : ∀ i j, index ≤ i → i < j → IsStarter language markers excluded tokens i →
      ¬ IsEnder language markers excluded tokens j) :
    pairFrom language markers excluded none index (tokens.drop index) = [] := by
  by_cases hstarts : ∃ i, index ≤ i ∧ IsStarter language markers excluded tokens i
  · obtain ⟨start, ⟨hle, hstart⟩, hfirst⟩ := exists_least hstarts
    obtain ⟨-, token, htoken, -⟩ := id hstart
    have hbound := lt_length_of_getElem? htoken
    rw [pairFrom_drop_idle hle, pairFrom_drop_starter hstart,
      pairFrom_drop_idle (Nat.succ_le_of_lt hbound), pairFrom_drop_length]
    · intro i token hi hlt htoken
      exact idle_of_not_isEnder htoken (hnone start i hle hi hstart)
    · intro i token hi hlt htoken
      exact idle_of_not_isStarter htoken fun hstarter => hfirst i hlt ⟨hi, hstarter⟩
  · rcases Nat.le_total index tokens.length with hle | hge
    · rw [pairFrom_drop_idle hle, pairFrom_drop_length]
      intro i token hi hlt htoken
      exact idle_of_not_isStarter htoken fun hstarter => hstarts ⟨i, hi, hstarter⟩
    · rw [List.drop_eq_nil_of_le hge]
      rfl

namespace GreedyFrom

theorem pairFrom_eq {index : Nat} {spans : List Span}
    (hgreedy : GreedyFrom language markers excluded tokens index spans) :
    pairFrom language markers excluded none index (tokens.drop index) = spans := by
  induction hgreedy with
  | done hnone => exact pairFrom_drop_eq_nil hnone
  | @region index start close later hle hlt hstart hclose hbefore hinside hlater ih =>
      calc
        pairFrom language markers excluded none index (tokens.drop index)
          = pairFrom language markers excluded none start (tokens.drop start) := by
            apply pairFrom_drop_idle hle
            intro i token hi hlt htoken
            exact idle_of_not_isStarter htoken (hbefore i hi hlt)
        _ = pairFrom language markers excluded (some start) (start + 1)
              (tokens.drop (start + 1)) := pairFrom_drop_starter hstart
        _ = pairFrom language markers excluded (some start) close (tokens.drop close) := by
            apply pairFrom_drop_idle hlt
            intro i token hi hlt htoken
            exact idle_of_not_isEnder htoken (hinside i hi hlt)
        _ = ⟨start, some close, markers.kind⟩ :: pairFrom language markers excluded none
              (close + 1) (tokens.drop (close + 1)) := pairFrom_drop_ender hclose
        _ = ⟨start, some close, markers.kind⟩ :: later := by rw [ih]

theorem index_le_head {index : Nat} {spans : List Span}
    (hgreedy : GreedyFrom language markers excluded tokens index spans) :
    ∀ span ∈ spans.head?, index ≤ span.start ∧ ∀ i, index ≤ i → i < span.start →
      ¬ IsStarter language markers excluded tokens i := by
  intro span hspan
  cases hgreedy with
  | done hnone => contradiction
  | region hle hlt hstart hclose hbefore hinside hlater =>
      obtain rfl := Option.some.inj hspan
      exact ⟨hle, hbefore⟩

theorem exists_close {index : Nat} {spans : List Span}
    (hgreedy : GreedyFrom language markers excluded tokens index spans) {span : Span}
    (hmem : span ∈ spans) :
    ∃ close, span = ⟨span.start, some close, markers.kind⟩ ∧ index ≤ span.start ∧
      span.start < close ∧ IsStarter language markers excluded tokens span.start ∧
      IsEnder language markers excluded tokens close ∧
      ∀ i, span.start < i → i < close → ¬ IsEnder language markers excluded tokens i := by
  induction hgreedy with
  | done hnone => contradiction
  | @region index start close later hle hlt hstart hclose hbefore hinside hlater ih =>
      rcases List.mem_cons.mp hmem with rfl | hmem
      · exact ⟨close, rfl, hle, hlt, hstart, hclose, hinside⟩
      · obtain ⟨spanClose, hspan, hafter, hregion⟩ := ih hmem
        exact ⟨spanClose, hspan, by omega, hregion⟩

private theorem isChain {index : Nat} {spans : List Span}
    (hgreedy : GreedyFrom language markers excluded tokens index spans) :
    spans.IsChain fun first second => first.closesBefore second = true ∧
      ∀ close ∈ first.close, ∀ i, close < i → i < second.start →
        ¬ IsStarter language markers excluded tokens i := by
  induction hgreedy with
  | done hnone => exact .nil
  | @region index start close later hle hlt hstart hclose hbefore hinside hlater ih =>
      rw [List.isChain_cons]
      refine ⟨?_, ih⟩
      intro next hnext
      obtain ⟨hafter, hnone⟩ := hlater.index_le_head next hnext
      refine ⟨(closesBefore_iff rfl).mpr hafter, ?_⟩
      intro other hother i hi hlt
      obtain rfl : close = other := Option.some.inj hother
      exact hnone i hi hlt

private theorem no_pair_after {index : Nat} {spans : List Span}
    (hgreedy : GreedyFrom language markers excluded tokens index spans) {i j : Nat}
    (hle : index ≤ i) (hlast : ∀ span ∈ spans.getLast?, ∀ close ∈ span.close, close < i)
    (hlt : i < j) (hstarter : IsStarter language markers excluded tokens i) :
    ¬ IsEnder language markers excluded tokens j := by
  induction hgreedy with
  | done hnone => exact hnone i j hle hlt hstarter
  | @region index start close later _ _ _ _ _ _ hlater ih =>
      cases later with
      | nil => exact ih (hlast _ rfl close rfl) nofun
      | cons next rest =>
          rw [List.getLast?_cons_cons] at hlast
          have hmem := List.getLast?_eq_some_getLast (List.cons_ne_nil next rest)
          obtain ⟨lastClose, hspan, hafter, hlastLt, -⟩ :=
            hlater.exists_close (List.getLast_mem (List.cons_ne_nil next rest))
          have hlastClose := hlast _ hmem lastClose (congrArg Span.close hspan)
          exact ih (by omega) hlast

private theorem greedy {spans : List Span}
    (hgreedy : GreedyFrom language markers excluded tokens 0 spans) :
    Greedy language markers excluded tokens spans where
  kind_eq span hmem := by
    obtain ⟨close, hspan, -⟩ := hgreedy.exists_close hmem
    exact congrArg Span.kind hspan
  paired span hmem := by
    obtain ⟨close, hspan, -, hlt, hstart, hclose, -⟩ := hgreedy.exists_close hmem
    exact ⟨close, congrArg Span.close hspan, hlt, hclose.lt_length, hstart, hclose⟩
  separate := hgreedy.isChain.imp fun _ _ hnext => hnext.1
  no_starter_before span hspan i hlt :=
    (hgreedy.index_le_head span hspan).2 i (Nat.zero_le i) hlt
  no_starter_between := hgreedy.isChain.imp fun _ _ hnext => hnext.2
  no_ender_inside span hmem close hclose i hi hlt := by
    obtain ⟨spanClose, hspan, -, -, -, -, hinside⟩ := hgreedy.exists_close hmem
    obtain rfl : spanClose = close :=
      Option.some.inj ((congrArg Span.close hspan).symm.trans hclose)
    exact hinside i hi hlt
  no_pair_after i j hlast hlt hstarter :=
    hgreedy.no_pair_after (Nat.zero_le i) hlast hlt hstarter

end GreedyFrom

private theorem greedyFrom_of_forall {index : Nat} {spans : List Span}
    (hregions : ∀ span ∈ spans, ∃ close, span = ⟨span.start, some close, markers.kind⟩ ∧
      span.start < close ∧ IsStarter language markers excluded tokens span.start ∧
      IsEnder language markers excluded tokens close ∧
      ∀ i, span.start < i → i < close → ¬ IsEnder language markers excluded tokens i)
    (hseparate : spans.IsChain fun first second => first.closesBefore second = true)
    (hbetween : spans.IsChain fun first second => ∀ close ∈ first.close, ∀ i, close < i →
      i < second.start → ¬ IsStarter language markers excluded tokens i)
    (hhead : ∀ span ∈ spans.head?, index ≤ span.start ∧ ∀ i, index ≤ i → i < span.start →
      ¬ IsStarter language markers excluded tokens i)
    (hlast : ∀ i j, index ≤ i → (∀ span ∈ spans.getLast?, ∀ close ∈ span.close, close < i) →
      i < j → IsStarter language markers excluded tokens i →
        ¬ IsEnder language markers excluded tokens j) :
    GreedyFrom language markers excluded tokens index spans := by
  induction spans generalizing index with
  | nil => exact .done fun i j hle => hlast i j hle nofun
  | cons span rest ih =>
      rw [List.forall_mem_cons] at hregions
      obtain ⟨⟨close, hspan, hlt, hstart, hclose, hinside⟩, hrest⟩ := hregions
      obtain ⟨hnext, hseparate⟩ := List.isChain_cons.mp hseparate
      obtain ⟨hnone, hbetween⟩ := List.isChain_cons.mp hbetween
      obtain ⟨hle, hbefore⟩ := hhead span rfl
      have hspanClose : span.close = some close := congrArg Span.close hspan
      rw [hspan]
      refine .region hle hlt hstart hclose hbefore hinside (ih hrest hseparate hbetween ?_ ?_)
      · intro next hmem
        exact ⟨(closesBefore_iff hspanClose).mp (hnext next hmem),
          fun i hi => hnone next hmem close hspanClose i hi⟩
      · intro i j hi hbehind
        refine hlast i j (by omega) ?_
        cases rest with
        | nil =>
            intro last hmem other hother
            obtain rfl := Option.some.inj hmem
            obtain rfl : close = other := Option.some.inj (hspanClose.symm.trans hother)
            exact hi
        | cons next rest => rwa [List.getLast?_cons_cons]

private theorem Greedy.greedyFrom {spans : List Span}
    (hgreedy : Greedy language markers excluded tokens spans) :
    GreedyFrom language markers excluded tokens 0 spans := by
  apply greedyFrom_of_forall ?_ hgreedy.separate hgreedy.no_starter_between
  · intro span hspan
    exact ⟨Nat.zero_le _, fun i _ => hgreedy.no_starter_before span hspan i⟩
  · exact fun i j _ => hgreedy.no_pair_after i j
  · intro span hmem
    obtain ⟨close, hclose, hlt, -, hstart, hender⟩ := hgreedy.paired span hmem
    refine ⟨close, ?_, hlt, hstart, hender, hgreedy.no_ender_inside span hmem close hclose⟩
    rw [← hclose, ← hgreedy.kind_eq span hmem]

theorem greedy_pair (language : Language) (markers : MarkerPair) (excluded : List Span)
    (tokens : List Token) :
    Greedy language markers excluded tokens (pair language markers excluded tokens) := by
  obtain ⟨spans, hspans⟩ := exists_greedyFrom language markers excluded tokens 0
  have hpair : pair language markers excluded tokens = spans := hspans.pairFrom_eq
  rw [hpair]
  exact hspans.greedy

/-- Pairing gives the greedy regions, and no other regions are greedy. -/
theorem greedy_iff_eq_pair (language : Language) (markers : MarkerPair) (excluded : List Span)
    (tokens : List Token) (spans : List Span) :
    Greedy language markers excluded tokens spans ↔
      spans = pair language markers excluded tokens := by
  constructor
  · intro hgreedy
    exact hgreedy.greedyFrom.pairFrom_eq.symm
  · rintro rfl
    exact greedy_pair language markers excluded tokens

end Docblock.Span
