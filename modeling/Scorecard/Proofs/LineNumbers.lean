import Scorecard.Proofs.FactPlaces

set_option autoImplicit false

/-! # Line numbers of a file

The facts about the lines of a file count every line end, those about its syntax only newlines. Both
numberings are the same in a text whose only line ends are newlines; any other line end before the
last character shifts the lines after it by one.
-/

namespace Scorecard

open Source (Node)

/-! ## Facts about lines -/

theorem filter_moduleLength_lineFacts (path text : String) :
    (lineFacts path text).filter (·.kind = Kind.moduleLength) =
      [⟨Kind.moduleLength, .ofFile path, .int (Text.lines text).length, ""⟩] := by
  rcases lineFacts_cases path text with ⟨-, h⟩ | ⟨number, length, -, h⟩ <;> rw [h] <;> rfl

theorem filter_lineLength_lineFacts (path text : String) :
    (Text.lines text = [] → (lineFacts path text).filter (·.kind = Kind.lineLength) = []) ∧
    (Text.lines text ≠ [] → ∃ number length, IsLongest (Text.lines text) number length ∧
      (lineFacts path text).filter (·.kind = Kind.lineLength) =
        [⟨Kind.lineLength, .ofLines path number number, .int length, ""⟩]) := by
  rcases lineFacts_cases path text with ⟨hnil, h⟩ | ⟨number, length, hlongest, h⟩
  · exact ⟨fun _ => by rw [h]; rfl, fun hne => absurd hnil hne⟩
  · exact ⟨fun hnil => absurd hnil hlongest.ne_nil, fun _ =>
      ⟨number, length, hlongest, by rw [h]; rfl⟩⟩

/-- The other facts about lines are about the whole file. -/
theorem stop_eq_zero_of_mem_lineFacts {path text : String} {f : Fact} (hf : f ∈ lineFacts path text)
    (hkind : f.kind ≠ Kind.lineLength) : f.location.stop.value = 0 := by
  have hwhole : ∀ g ∈ wholeFileFacts path text, g.location.stop.value = 0 :=
    List.forall_mem_cons.mpr ⟨rfl, List.forall_mem_singleton.mpr rfl⟩
  rcases lineFacts_cases path text with ⟨-, h⟩ | ⟨number, length, -, h⟩
  · exact hwhole f (h ▸ hf)
  · rw [h] at hf
    rcases List.mem_append.mp hf with hf | hf
    · exact hwhole f hf
    · cases List.mem_singleton.mp hf
      exact absurd rfl hkind

/-! ## All facts of a file -/

/-- **Line numbers.** A file has facts unless it asks for a logger by an expression that cannot be
written. Its length is the number of lines that newlines end, and one more for each other line end
before its last character. The longest line is the first one of the greatest length among the lines
that every line end divides, and these are the lines that newlines end only if there is no other
line end. Every fact lies on lines up to the length of the file, and if it is not about the longest
line, on lines that newlines end. -/
theorem line_numbering [Text.CharacterNames] (path : String) (localModules : List String)
    (bytes : List Nat) :
    let text := sourceText bytes
    let lines := Text.newlineLines text
    let others := text.toList.dropLast.countP Text.isOtherEnd
    let block := fileFacts path localModules text (Source.parse text)
    ((∃ facts, block = .ok facts) ↔ ¬AsksForUnwritableLogger text) ∧
    Text.lines text =
      (Text.closeParts ((text.toList.splitOn '\n').flatMap (·.splitOnP Text.isOtherEnd))).map
      String.ofList ∧
    (Text.lines text = lines ↔ ∀ c ∈ text.toList, Text.isOtherEnd c = false) ∧
    ∀ facts, block = .ok facts →
      facts.filter (·.kind = Kind.moduleLength) =
        [⟨Kind.moduleLength, .ofFile path, .int (lines.length + others : Nat), ""⟩] ∧
      (lines = [] → facts.filter (·.kind = Kind.lineLength) = []) ∧
      (lines ≠ [] → ∃ number length, IsLongest (Text.lines text) number length ∧
        facts.filter (·.kind = Kind.lineLength) =
          [⟨Kind.lineLength, .ofLines path number number, .int length, ""⟩]) ∧
      ∀ f ∈ facts, f.location.file = path ∧ 0 ≤ f.location.start.value ∧
        f.location.start.value ≤ f.location.stop.value ∧
        f.location.stop.value ≤ (lines.length + others : Nat) ∧
          (f.kind ≠ Kind.lineLength → f.location.stop.value ≤ lines.length) := by
  intro text lines others block
  have hreturn : '\r' ∉ text.toList := not_mem_sourceText bytes
  have hlength : (Text.lines text).length = lines.length + others := Text.length_lines_eq hreturn
  refine ⟨exists_fileFacts_iff path localModules
    text, by rw [Text.lines, Text.linesFrom_nil_eq hreturn],
    Text.lines_eq_newlineLines_iff hreturn, ?_⟩
  intro facts hfacts
  obtain ⟨found, hfound, rfl⟩ := fileFacts_eq_ok_iff.mp hfacts
  have hsyntax := inFile_moduleFacts hfound
  -- no fact about syntax has a kind of a fact about lines
  have hfilter : ∀ kind ∈ Kind.ofText,
      (lineFacts path text ++ found).filter (·.kind = kind) =
        (lineFacts path text).filter (·.kind = kind) := by
    intro kind hkind
    rw [List.filter_append, hsyntax.filter_eq_nil
      (Kind.not_mem_ofSyntax (List.mem_append_right _ hkind)), List.append_nil]
  rw [hfilter _ (by decide), hfilter _ (by decide), filter_moduleLength_lineFacts, hlength]
  obtain ⟨hnone, hsome⟩ := filter_lineLength_lineFacts path text
  have hnil : Text.lines text = [] ↔ lines = [] := Text.lines_eq_nil_iff hreturn
  refine ⟨rfl, fun h => hnone (hnil.mpr h), fun h => hsome (mt hnil.mp h), ?_⟩
  refine List.forall_mem_append.mpr ⟨fun f hf => ?_, fun f hf => ?_⟩
  · have hin := inFile_lineFacts path text f hf
    rw [hlength] at hin
    refine ⟨hin.file, hin.start, hin.ordered, hin.stop, fun hkind => ?_⟩
    rw [stop_eq_zero_of_mem_lineFacts hf hkind]
    exact Int.natCast_nonneg _
  · have hin := hsyntax f hf
    exact ⟨hin.file, hin.start, hin.ordered,
      (hin.mono (List.Subset.refl _) (Nat.le_add_right _ _)).stop, fun _ => hin.stop⟩

/-- A form feed in a comment: the file has three lines that newlines end, but is four lines long,
and its longest line, which opens the function, has another number than the function. -/
theorem form_feed_shifts_lines :
    let text := "# a\x0cb\ndef function_name():\n    return 1\n"
    (Text.newlineLines text).length = 3 ∧
    ∃ facts, fileFacts "a.py" [] text (Source.parse text) = .ok facts ∧
      ⟨Kind.moduleLength, .ofFile "a.py", .int 4, ""⟩ ∈ facts ∧
      ⟨Kind.lineLength, .ofLines "a.py" 3 3, .int 20, ""⟩ ∈ facts ∧
      ⟨Kind.functionName, .ofLines "a.py" 2 3, .text "function_name", "function_name"⟩ ∈ facts := by
  intro text
  -- the list of all facts is not written out, only asked for these three
  have hfacts : (fileFacts "a.py" [] text (Source.parse text)).toOption.map (fun facts =>
      decide (⟨Kind.moduleLength, .ofFile "a.py", .int 4, ""⟩ ∈ facts ∧
        ⟨Kind.lineLength, .ofLines "a.py" 3 3, .int 20, ""⟩ ∈ facts ∧
        ⟨Kind.functionName, .ofLines "a.py" 2 3, .text "function_name", "function_name"⟩ ∈ facts)) =
          some true := by
    decide +kernel
  refine ⟨by decide, ?_⟩
  cases hblock : fileFacts "a.py" [] text (Source.parse text) with
  | error fault =>
      rw [hblock] at hfacts
      cases hfacts
  | ok facts =>
      rw [hblock] at hfacts
      exact ⟨facts, rfl, of_decide_eq_true (Option.some.inj hfacts)⟩

end Scorecard
