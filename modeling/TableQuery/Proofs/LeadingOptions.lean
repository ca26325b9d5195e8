import TableQuery.CommandLine.Run

/-!
# Options in front of a query

Options are taken up to the first word that is none, and that word and all
behind it are the query, whatever they look like. But every word is looked at
before the first option is taken, those of the query included, and there is one
kind of word that cannot be looked at without a complaint: two dashes and an
equals sign, which begins every long spelling and says nothing about which. Such
a word in a query is a misuse, unless two dashes alone stand in front of it,
since words behind these are not looked at.

`query_begins_at_first_plain_word` says that nothing else gets in the way. The
words of the options become settings one option after another (`take_choices`),
and the words of the query come through as they are, whatever each of them was
taken for (`classify_words`).
-/

namespace TableQuery.CommandLine

/-- A word that does not begin with a dash. -/
structure Undashed where
  text : String
  undashed : text.toList.head? ≠ some '-'

/-- An option as it may be given in front of a query. -/
inductive Choice where
  | header
  | verbose
  | indexSeparator (value : Undashed)
  | cellSeparator (value : Undashed)
  | outputSeparator (value : Undashed)

namespace Choice

/-- The words that give an option. -/
def words : Choice → List String
  | .header => ["-H"]
  | .verbose => ["-v"]
  | .indexSeparator value => ["-F", value.text]
  | .cellSeparator value => ["-I", value.text]
  | .outputSeparator value => ["-O", value.text]

/-- The settings with an option given. -/
def apply (s : Settings) : Choice → Settings
  | .header => { s with header := true }
  | .verbose => { s with verbose := true }
  | .indexSeparator value => { s with indexSeparator := value.text }
  | .cellSeparator value => { s with cellSeparator := value.text }
  | .outputSeparator value => { s with outputSeparator := value.text }

/-- What the words of an option are taken for. -/
def arguments : Choice → List (String × Argument)
  | .header => [("-H", .option .header false none)]
  | .verbose => [("-v", .option .verbose false none)]
  | .indexSeparator value =>
    [("-F", .option .indexSeparator false none), (value.text, .plain)]
  | .cellSeparator value =>
    [("-I", .option .cellSeparator false none), (value.text, .plain)]
  | .outputSeparator value =>
    [("-O", .option .outputSeparator false none), (value.text, .plain)]

end Choice

/-- Whether a word begins like every long spelling and then has a value. -/
def beginsLikeAll (word : String) : Bool :=
  ['-', '-', '='].isPrefixOf word.toList

/-- The first word that cannot be told from any long spelling. Words behind two
dashes alone do not count. -/
def firstAmbiguous (words : List String) : Option String :=
  (words.takeWhile (· ≠ "--")).find? beginsLikeAll

/-! ## What a word is taken for -/

namespace Argument

theorem ofWord_undashed (word : Undashed) : ofWord word.text = .ok .plain := by
  have hhead := word.undashed
  unfold ofWord
  split
  · next heq => rw [heq] at hhead; exact absurd rfl hhead
  · next heq => rw [heq] at hhead; exact absurd rfl hhead
  · next heq => rw [heq] at hhead; exact absurd rfl hhead
  · rfl

theorem longSpellings_eq : Setting.longSpellings =
    [("--help", .help), ("--command", .command), ("--verbose", .verbose)] := rfl

theorem ofLong_of_beginsLikeAll {word : String}
    (h : beginsLikeAll word = true) :
    ofLong word =
      .error (.ambiguous word (Setting.longSpellings.map (·.1))) := by
  obtain ⟨rest, hrest⟩ := List.isPrefixOf_iff_prefix.1 h
  have hsplit : (splitCarried word.toList).1 = ['-', '-'] := by
    rw [← hrest]
    rfl
  unfold ofLong
  generalize splitCarried word.toList = split at hsplit
  obtain ⟨spelled, carried⟩ := split
  subst hsplit
  rfl

/-- The letter behind the dashes tells the long spellings apart. -/
theorem length_filter_longSpellings (c : Char) (cs : List Char) :
    (Setting.longSpellings.filter fun (spelling, _) =>
      ('-' :: '-' :: c :: cs).isPrefixOf spelling.toList).length ≤ 1 := by
  have hhelp : ('-' :: '-' :: c :: cs).isPrefixOf "--help".toList =
      (c == 'h' && cs.isPrefixOf ['e', 'l', 'p']) := rfl
  have hcommand : ('-' :: '-' :: c :: cs).isPrefixOf "--command".toList =
      (c == 'c' && cs.isPrefixOf ['o', 'm', 'm', 'a', 'n', 'd']) := rfl
  have hverbose : ('-' :: '-' :: c :: cs).isPrefixOf "--verbose".toList =
      (c == 'v' && cs.isPrefixOf ['e', 'r', 'b', 'o', 's', 'e']) := rfl
  simp only [longSpellings_eq, List.filter_cons, List.filter_nil, hhelp,
    hcommand, hverbose, Bool.and_eq_true, beq_iff_eq]
  by_cases hh : c = 'h'
  · subst hh
    simp
    split <;> simp
  by_cases hc : c = 'c'
  · subst hc
    simp
    split <;> simp
  · simp [hh, hc]
    split <;> simp

theorem exists_ofLong {word : String} {c : Char} {rest : List Char}
    (hword : word.toList = '-' :: '-' :: c :: rest) (hc : c ≠ '=') :
    ∃ a, ofLong word = .ok a ∧ a ≠ .dashes := by
  have hsplit : (splitCarried word.toList).1 =
      '-' :: '-' :: c :: rest.takeWhile (· != '=') := by
    simp [splitCarried, hword, hc]
  have hone := length_filter_longSpellings c (rest.takeWhile (· != '='))
  unfold ofLong
  generalize splitCarried word.toList = split at hsplit
  obtain ⟨spelled, carried⟩ := split
  subst hsplit
  dsimp only
  split
  · next s _ => exact ⟨_, rfl, by simp⟩
  · generalize Setting.longSpellings.filter _ = candidates at hone
    cases candidates with
    | nil => exact ⟨_, rfl, by unfold ofUnspelled; split <;> simp⟩
    | cons first others =>
        cases others with
        | nil => exact ⟨_, rfl, by simp⟩
        | cons _ _ => simp at hone

/-- A word is looked at without a complaint unless it begins like every long
spelling, and only two dashes alone are taken for what they are. -/
theorem ofWord_eq (word : String) :
    (beginsLikeAll word = true ∧ ofWord word =
        .error (.ambiguous word (Setting.longSpellings.map (·.1)))) ∨
      (word = "--" ∧ ofWord word = .ok .dashes) ∨
      (beginsLikeAll word = false ∧ word ≠ "--" ∧
        ∃ a, ofWord word = .ok a ∧ a ≠ .dashes) := by
  unfold ofWord
  split
  · next heq =>
      exact .inr (.inl ⟨String.toList_inj.1 heq, rfl⟩)
  · next rest hne heq =>
      match rest with
      | [] => exact absurd rfl hne
      | c :: rest =>
          by_cases hc : c = '='
          · subst hc
            have hall : beginsLikeAll word = true := by
              rw [beginsLikeAll, heq]
              rfl
            exact .inl ⟨hall, ofLong_of_beginsLikeAll hall⟩
          · have hall : beginsLikeAll word = false := by
              simp [beginsLikeAll, heq, List.isPrefixOf_cons_cons, Ne.symm hc]
            have hdashes : word ≠ "--" := by
              intro h
              rw [h] at heq
              cases heq
            exact .inr (.inr ⟨hall, hdashes, exists_ofLong heq hc⟩)
  · next c rest hne hlong heq =>
      have hc : c ≠ '-' := hlong
      have hall : beginsLikeAll word = false := by
        simp [beginsLikeAll, heq, List.isPrefixOf_cons_cons, Ne.symm hc]
      have hdashes : word ≠ "--" := by
        intro h
        rw [h] at heq
        exact hc (by cases heq; rfl)
      have hshort : ofShort c rest ≠ .dashes := by
        unfold ofShort ofUnspelled
        split <;> (try split) <;> simp
      exact .inr (.inr ⟨hall, hdashes, _, rfl, hshort⟩)
  · next hdashes hlong hshort =>
      have hall : beginsLikeAll word = false := by
        rw [beginsLikeAll, ← Bool.not_eq_true, List.isPrefixOf_iff_prefix]
        rintro ⟨rest, hrest⟩
        exact hlong ('=' :: rest) hrest.symm
      have hword : word ≠ "--" := by
        intro h
        exact hdashes (by rw [h]; rfl)
      exact .inr (.inr ⟨hall, hword, _, rfl, by simp⟩)

end Argument

/-! ## What a command line is taken for -/

theorem firstAmbiguous_cons (word : String) (words : List String) :
    firstAmbiguous (word :: words) =
      if word = "--" then none
      else if beginsLikeAll word then some word
      else firstAmbiguous words := by
  unfold firstAmbiguous
  by_cases hdashes : word = "--"
  · simp [hdashes]
  · cases hall : beginsLikeAll word <;> simp [hdashes, hall]

namespace Invocation

theorem classify_cons {word : String} {a : Argument}
    (hword : Argument.ofWord word = .ok a) (ha : a ≠ .dashes)
    (words : List String) :
    classify (word :: words) = (classify words).map ((word, a) :: ·) := by
  rw [classify, hword]
  cases a with
  | dashes => exact absurd rfl ha
  | plain | option _ _ _ | unknown => cases classify words <;> rfl

/-- Words are classified one by one, up to the first that cannot be. -/
theorem classify_words (words : List String) :
    match firstAmbiguous words with
    | some word => classify words =
        .error (.ambiguous word (Setting.longSpellings.map (·.1)))
    | none => ∃ arguments, classify words = .ok arguments ∧
        arguments.map (·.1) = words := by
  induction words with
  | nil => exact ⟨[], rfl, rfl⟩
  | cons word words ih =>
      rw [firstAmbiguous_cons]
      rcases Argument.ofWord_eq word with
        ⟨hall, hword⟩ | ⟨rfl, hword⟩ | ⟨hall, hdashes, a, hword, ha⟩
      · have hdashes : word ≠ "--" := by
          intro h
          rw [h] at hall
          cases hall
        simp only [hdashes, hall, if_true, if_false]
        rw [classify, hword]
        rfl
      · refine ⟨_, by rw [classify, hword]; rfl, ?_⟩
        simp [Function.comp_def]
      · simp only [hdashes, hall, if_false, Bool.false_eq_true]
        rw [classify_cons hword ha]
        cases hfirst : firstAmbiguous words with
        | some w =>
            simp only [hfirst] at ih
            simp only [ih]
            rfl
        | none =>
            simp only [hfirst] at ih
            obtain ⟨arguments, hclassify, hwords⟩ := ih
            refine ⟨(word, a) :: arguments, by rw [hclassify]; rfl, ?_⟩
            rw [List.map_cons, hwords]

/-- Words that are known can be taken off the front. -/
theorem classify_append {front : List (String × Argument)}
    (h : ∀ entry ∈ front,
      Argument.ofWord entry.1 = .ok entry.2 ∧ entry.2 ≠ .dashes)
    (words : List String) :
    classify (front.map (·.1) ++ words) = (classify words).map (front ++ ·) := by
  induction front with
  | nil => cases hwords : classify words <;> simp [hwords, Except.map]
  | cons entry front ih =>
      obtain ⟨⟨hword, hdashes⟩, hfront⟩ := List.forall_mem_cons.1 h
      rw [List.map_cons, List.cons_append, classify_cons hword hdashes,
        ih hfront]
      cases classify words <;> rfl

/-! ## Options become settings -/

/-- The invocation with these settings and words, and nothing missing. -/
def ofSettings (s : Settings) (words : List String) : Invocation where
  cellSeparator := some s.cellSeparator
  outputSeparator := some s.outputSeparator
  indexSeparator := s.indexSeparator
  header := s.header
  verbose := s.verbose
  words

theorem answer_ofSettings (files : Path → Entry)
    (s : Settings) (words : List String) (request : Request) :
    (ofSettings s words).answer files request =
      (Report.ofRequest files s request).mapError .abort := by
  unfold answer
  show ((Report.ofRequest files s request).mapError Failure.abort >>= fun report =>
    pure report) = _
  cases Report.ofRequest files s request <;> rfl

theorem take_choice (s : Settings) (choice : Choice)
    (rest : List (String × Argument)) :
    (ofSettings s []).take [] (choice.arguments ++ rest) =
      (ofSettings (choice.apply s) []).take [] rest := by
  cases choice with
  | header | verbose =>
      rw [Choice.arguments, List.singleton_append, take]
      rfl
  | indexSeparator _ | cellSeparator _ | outputSeparator _ => rfl

theorem take_choices (s : Settings) (choices : List Choice) (word : String)
    (rest : List (String × Argument)) :
    (ofSettings s []).take []
        (choices.flatMap Choice.arguments ++ (word, .plain) :: rest) =
      .ok (ofSettings (choices.foldl Choice.apply s)
        (word :: rest.map (·.1))) := by
  induction choices generalizing s with
  | nil => rfl
  | cons choice choices ih =>
      rw [List.flatMap_cons, List.append_assoc, take_choice, ih,
        List.foldl_cons]

end Invocation

theorem Choice.ofWord_arguments (choice : Choice) :
    ∀ entry ∈ choice.arguments,
      Argument.ofWord entry.1 = .ok entry.2 ∧ entry.2 ≠ .dashes := by
  cases choice with
  | header | verbose =>
      intro entry hentry
      rw [List.mem_singleton.1 hentry]
      exact ⟨rfl, by simp⟩
  | indexSeparator value | cellSeparator value | outputSeparator value =>
      simp only [arguments, List.forall_mem_cons]
      exact ⟨⟨rfl, by simp⟩, ⟨Argument.ofWord_undashed value, by simp⟩,
        fun _ h => by cases h⟩

theorem map_fst_arguments (choices : List Choice) :
    (choices.flatMap Choice.arguments).map (·.1) =
      choices.flatMap Choice.words := by
  rw [List.map_flatMap]
  congr 1
  funext choice
  cases choice <;> rfl

theorem Invocation.ofWords_leading (choices : List Choice) (word : Undashed)
    (rest : List String) :
    Invocation.ofWords (choices.flatMap Choice.words ++ word.text :: rest) =
      match firstAmbiguous rest with
      | some w => .error (.misuse
          (.ambiguous w (Setting.longSpellings.map (·.1))))
      | none => .ok (.ofSettings (choices.foldl Choice.apply {})
          (word.text :: rest)) := by
  have hfront : ∀ entry ∈ choices.flatMap Choice.arguments,
      Argument.ofWord entry.1 = .ok entry.2 ∧ entry.2 ≠ .dashes := by
    intro entry hentry
    obtain ⟨choice, -, hchoice⟩ := List.mem_flatMap.1 hentry
    exact choice.ofWord_arguments entry hchoice
  have hrest := classify_words rest
  rw [ofWords, ← map_fst_arguments, classify_append hfront,
    classify_cons (Argument.ofWord_undashed word) (by simp)]
  cases hfirst : firstAmbiguous rest with
  | some w =>
      simp only [hfirst] at hrest
      rw [hrest]
      rfl
  | none =>
      simp only [hfirst] at hrest
      obtain ⟨arguments, hclassify, hwords⟩ := hrest
      rw [hclassify]
      show (ofSettings {} []).take [] _ = _
      rw [take_choices, hwords]

/-- Behind options and a word that is none of them, all that a command line has
is its query. The report is that on the query, word for word, under the
settings that the options give, unless one of the words cannot be told from any
long spelling, and that is a misuse. -/
theorem query_begins_at_first_plain_word (files : Path → Entry)
    (choices : List Choice) (word : Undashed) (rest : List String) :
    run files (choices.flatMap Choice.words ++ word.text :: rest) =
      match firstAmbiguous rest with
      | some w => .ok (Stop.misuse
          (.ambiguous w (Setting.longSpellings.map (·.1)))).report
      | none =>
        (Report.ofRequest files (choices.foldl Choice.apply {})
          (.words (word.text :: rest))).mapError .abort := by
  rw [run, request, Invocation.ofWords_leading]
  cases firstAmbiguous rest with
  | some w => rfl
  | none =>
      exact Invocation.answer_ofSettings files _ _ _

/-- A file of one field, whose only cell begins like every long spelling. -/
def markFile : List UInt8 :=
  "a\n--=x\n".toList.map fun c => c.toNat.toUInt8

/-- A query for that cell, behind its first word. -/
def markWords : List String := ["a", "from", "T", "where", "a", "=", "--=x"]

/-- The query has an answer, but as a command line it is misused. -/
theorem literal_like_all_spellings_is_misuse :
    ∃ report answer,
      run (fun _ => .file markFile)
        ([Choice.header].flatMap Choice.words ++ "select" :: markWords) =
        .ok report ∧
      Report.ofRequest (fun _ => .file markFile)
        ([Choice.header].foldl Choice.apply {})
        (.words ("select" :: markWords)) = .ok answer ∧
      (report.status = 2 ∧ report.output = "") ∧
      answer.status = 0 ∧ answer.output = "a\n--=x\n" :=
  ⟨_, _, rfl, rfl, ⟨rfl, rfl⟩, rfl, rfl⟩

end TableQuery.CommandLine
