import Docblock.Document.Markdown
import Docblock.Proofs.Text.Lines
import Mathlib.Order.Lattice
import Mathlib.Order.MinMax

namespace Docblock.Markdown

private theorem runs_induction {motive : Text → Prop}
    (run : ∀ count, motive (List.replicate count backtick))
    (cons : ∀ count c rest, c ≠ backtick → motive rest →
      motive (List.replicate count backtick ++ c :: rest))
    (code : Text) : motive code := by
  -- The induction moves backticks from the code into the run in front of it.
  have hbehind : ∀ count, motive (List.replicate count backtick ++ code) := by
    induction code with
    | nil => simpa using run
    | cons c rest ih =>
        intro count
        by_cases hc : c = backtick
        · subst hc
          simpa [List.replicate_succ'] using ih (count + 1)
        · exact cons count c rest hc (ih 0)
  exact hbehind 0

private theorem longestRun_replicate (count : Nat) :
    longestRun (List.replicate count backtick) = count := by
  have hall : ∀ c ∈ List.replicate count backtick, decide (c ≠ backtick) = false := by
    intro c hc
    simpa using List.eq_of_mem_replicate hc
  rw [longestRun, List.splitOnP_eq_singleton hall]
  simp

private theorem longestRun_append_cons (count : Nat) {c : Char} (hc : c ≠ backtick) (rest : Text) :
    longestRun (List.replicate count backtick ++ c :: rest) = max count (longestRun rest) := by
  have hall : ∀ c ∈ List.replicate count backtick, decide (c ≠ backtick) = false := by
    intro c hc
    simpa using List.eq_of_mem_replicate hc
  rw [longestRun, List.splitOnP_append_cons _ _ (by simpa using hc),
    List.splitOnP_eq_singleton hall, List.singleton_append, List.map_cons, List.max?_cons,
    List.length_replicate, longestRun]
  cases ((rest.splitOnP (· ≠ backtick)).map List.length).max? <;> simp

private theorem replicate_infix_replicate_iff {count length : Nat} :
    List.replicate count backtick <:+: List.replicate length backtick ↔ count ≤ length := by
  constructor
  · intro hwithin
    simpa using hwithin.length_le
  · intro hle
    obtain ⟨more, rfl⟩ := Nat.exists_eq_add_of_le hle
    rw [← List.replicate_append_replicate]
    exact (List.prefix_append _ _).isInfix

theorem replicate_infix_iff {count : Nat} {code : Text} :
    List.replicate count backtick <:+: code ↔ count ≤ longestRun code := by
  induction code using runs_induction with
  | run length => rw [longestRun_replicate, replicate_infix_replicate_iff]
  | cons length c rest hc ih =>
      rw [Text.infix_append_cons_iff (fun hmem => hc (List.eq_of_mem_replicate hmem)), ih,
        replicate_infix_replicate_iff, longestRun_append_cons length hc, le_max_iff]

/-- At least three backticks and nothing else. -/
structure IsFence (line : Text) : Prop where
  length_ge : 3 ≤ line.length
  all : ∀ c ∈ line, c = backtick

private theorem IsFence.eq_replicate {line : Text} (hline : IsFence line) :
    line = List.replicate line.length backtick :=
  List.eq_replicate_iff.mpr ⟨rfl, hline.all⟩

theorem length_fence (code : Text) : (fence code).length = max (longestRun code) 2 + 1 :=
  List.length_replicate

theorem isFence_fence (code : Text) : IsFence (fence code) where
  length_ge := by
    rw [length_fence]
    omega
  all _ hc := List.eq_of_mem_replicate hc

theorem IsFence.not_infix_iff {line code : Text} (hline : IsFence line) :
    ¬ line <:+: code ↔ (fence code).length ≤ line.length := by
  have hlength := hline.length_ge
  rw [hline.eq_replicate, replicate_infix_iff, length_fence, List.length_replicate]
  omega

/-- A line that closes a block of code: as many backticks as the fence of the code, or more. -/
def closes (code line : Text) : Bool :=
  (fence code).length ≤ line.length && line.all (· = backtick)

theorem closes_fence (code : Text) : closes code (fence code) = true := by
  simpa [closes] using (isFence_fence code).all

private theorem not_closes_of_mem_lines {code line : Text} (hline : line ∈ Text.lines code) :
    closes code line = false := by
  rw [Bool.eq_false_iff]
  intro hcloses
  obtain ⟨hlength, hall⟩ : (fence code).length ≤ line.length ∧ ∀ c ∈ line, c = backtick := by
    simpa [closes] using hcloses
  have hfence : IsFence line := ⟨(isFence_fence code).length_ge.trans hlength, hall⟩
  exact hfence.not_infix_iff.mpr hlength (Text.infix_of_mem_lines hline)

def leadLines (block : FieldMap) : List Text :=
  (reservedOrder.flatMap fun tag => (block.reserved? tag).toList.flatMap (reservedLines tag)) ++
    customLines block.custom

def codeLines (extension : Text) (snippets : List (Nat × Text)) : List Text :=
  snippets.flatMap fun (_, code) => snippetLines extension code

theorem blockLines_eq_append (extension : Text) (block : FieldMap) :
    blockLines extension block = leadLines block ++ codeLines extension block.snippets := rfl

/-- The fence of a code is the shortest that the code does not hold.  Behind the line that
opens a snippet the first line that closes it is the one written for it, and the lines up to
there are those of its code. -/
theorem fence_encloses_code :
    (∀ code, IsFence (fence code) ∧ ¬ fence code <:+: code ∧
      ∀ line, IsFence line → ¬ line <:+: code → (fence code).length ≤ line.length) ∧
    ∀ (extension : Text) (block : FieldMap) (earlier later : List (Nat × Text)) (index : Nat)
      (code : Text), block.snippets = earlier ++ (index, code) :: later →
        ∃ behind,
          Text.lines (Text.unlines (blockLines extension block)) =
            Text.linesOfRows (leadLines block ++ codeLines extension earlier) ++
              Text.lines (fence code ++ extension) ++ behind ∧
          behind.takeWhile (fun line => !closes code line) = Text.lines code ∧
          behind.dropWhile (fun line => !closes code line) =
            fence code :: Text.linesOfRows ([] :: codeLines extension later) := by
  constructor
  · intro code
    have hfence := isFence_fence code
    exact ⟨hfence, hfence.not_infix_iff.mpr (Nat.le_refl _),
      fun line hline => hline.not_infix_iff.mp⟩
  · intro extension block earlier later index code hsnippets
    have hrows : blockLines extension block =
        (leadLines block ++ codeLines extension earlier) ++
          ([fence code ++ extension, code, fence code] ++ [] :: codeLines extension later) := by
      rw [blockLines_eq_append, hsnippets, codeLines, List.flatMap_append, List.append_assoc]
      rfl
    have hlines : Text.lines (fence code) = [fence code] := by
      apply Text.lines_of_not_mem
      intro hmem
      exact absurd ((isFence_fence code).all _ hmem) (by decide)
    have hquiet : ∀ line ∈ Text.lines code, (!closes code line) = true := by
      intro line hline
      rw [not_closes_of_mem_lines hline]
      rfl
    refine ⟨Text.lines code ++ fence code ::
      Text.linesOfRows ([] :: codeLines extension later), ?_, ?_, ?_⟩
    · rw [hrows, Text.lines_unlines_of_ne_nil (by simp)]
      simp [Text.linesOfRows, hlines]
    · rw [List.takeWhile_append_of_pos hquiet, List.takeWhile_cons, closes_fence]
      simp
    · rw [List.dropWhile_append_of_pos hquiet, List.dropWhile_cons, closes_fence]
      simp

/-- Code that holds a fenced block of its own. -/
def fencedCode : Text :=
  "`\n```js\n```\n`".toList

def fencedBlock : FieldMap :=
  ⟨[.snippet 0 "x".toList, .reserved .name "f".toList, .snippet 1 fencedCode]⟩

theorem fence_encloses_fencedCode :
    fencedBlock.snippets = [(0, "x".toList)] ++ (1, fencedCode) :: [] ∧
    fence fencedCode = "````".toList ∧
    ∃ behind,
      Text.lines (Text.unlines (blockLines "js".toList fencedBlock)) =
        ["## f".toList, [], "```js".toList, "x".toList, "```".toList, [], "````js".toList] ++
          behind ∧
      behind.takeWhile (fun line => !closes fencedCode line) =
        ["`".toList, "```js".toList, "```".toList, "`".toList] := by
  have hsnippets : fencedBlock.snippets = [(0, "x".toList)] ++ (1, fencedCode) :: [] := by
    rw [FieldMap.snippets, List.mergeSort_of_pairwise (by decide)]
    rfl
  obtain ⟨behind, hlines, hcode, -⟩ :=
    fence_encloses_code.2 "js".toList fencedBlock _ _ _ _ hsnippets
  refine ⟨hsnippets, by decide +kernel, behind, hlines.trans ?_, hcode.trans (by decide +kernel)⟩
  exact congrArg (· ++ behind) (by decide +kernel)

end Docblock.Markdown
