/-
# The descent ends

The loops of the recursive descent end on every text, and they find what the machine of the
parser finds: whatever a loop does, the machine goes with it from one state to another.

* `Leads` : from one moment of the machine to a later one, the statements that are
  completed, the faults of grammar that are noted, and the words that are taken;
* `Ends` : a phrase ends, and the machine goes with it; `Ends.bind` puts two together;
* `exists_advance`, `exists_synchronize`, `ends_moreFields` : the inner loops end;
* `exists_round` : one round of the outer loop takes a word, and settles one statement or
  one fault;
* `exists_program` : hence the outer loop ends;
* `descend_eq_parse` : the descent ends on every text, with the outcome of the parser;
* `descent_ends_within_words` : its statements and faults are no more than the words of
  the text.
-/
import QueryPipeline.Proofs.Partition
import QueryPipeline.Proofs.RecursiveDescent
import QueryPipeline.Proofs.Recovery

namespace QueryPipeline

/-! ## The lexemes that a cursor comes to -/

namespace Cursor

variable {c c' : Cursor} {p : Position}

theorem next_eof_iff : c.next.1.result = .ok .eof ↔ c.skipBlanks.rest = [] := by
  unfold next
  split
  next h => exact iff_of_true rfl h
  next ch cs h =>
    refine iff_of_false ?_ (h ▸ List.cons_ne_nil ch cs)
    intro heof
    exact (scan_wellFormed ch cs .eof (Scan.result_of_lexeme heof)).1

theorem lexemes_of_rest_ne_nil (h : c.skipBlanks.rest ≠ []) :
    c.lexemes = c.next.1 :: c.next.2.lexemes := by
  rw [lexemes, dif_neg h]

theorem lexemes_of_next_ok {t : Token} (h : c.next = (⟨.ok t, p⟩, c')) :
    c.lexemes = ⟨.ok t, p⟩ :: if t = .eof then [] else c'.lexemes := by
  have heof := next_eof_iff (c := c)
  rw [h] at heof
  by_cases ht : t = .eof
  · rw [lexemes, dif_pos (heof.1 (congrArg Except.ok ht)), if_pos ht, h]
  · have hrest : c.skipBlanks.rest ≠ [] := fun hrest => ht (Except.ok.inj (heof.2 hrest))
    rw [lexemes_of_rest_ne_nil hrest, if_neg ht, h]

/-- Behind a lexical error fewer characters are left. -/
theorem lexemes_of_next_error {e : LexicalError} (h : c.next = (⟨.error e, p⟩, c')) :
    c.lexemes = ⟨.error e, p⟩ :: c'.lexemes ∧ c'.rest.length < c.rest.length := by
  have hrest : c.skipBlanks.rest ≠ [] := by
    intro hrest
    have heof := next_eof_iff.2 hrest
    rw [h] at heof
    cases heof
  have hlength := next_rest_length hrest
  rw [lexemes_of_rest_ne_nil hrest]
  rw [h] at hlength ⊢
  exact ⟨rfl, hlength⟩

end Cursor

namespace Descent

open QueryPipeline.Parser

/-! ## From one moment of the machine to another -/

/-- The words among some lexemes, without the end of the text. -/
def wordsIn (lexemes : List Lexeme) : List Word :=
  (lexemes.filterMap Lexeme.word?).filter fun w => w.token ≠ .eof

theorem wordsIn_ok {t : Token} (h : t ≠ .eof) (p : Position) (lexemes : List Lexeme) :
    wordsIn (⟨.ok t, p⟩ :: lexemes) = ⟨t, p⟩ :: wordsIn lexemes :=
  List.filter_cons_of_pos (decide_eq_true h)

/-- A moment of the machine: its state, the lexemes to come, and the faults noted so far. -/
structure Moment where
  state : State
  ahead : List Lexeme
  faults : List Fault

/-- Between two moments the machine completes the statements `done`, notes the faults of grammar
`noted` and takes the words `taken`, and what it finds in all is the same from both. -/
structure Leads (m m' : Moment) (done : List Statement) (noted : List Fault) (taken : List Word) :
    Prop where
  statements : found (events m.state m.ahead) = done ++ found (events m'.state m'.ahead)
  faults : m.faults ++ wrong (events m.state m.ahead) =
    m'.faults ++ wrong (events m'.state m'.ahead)
  grammatical : m'.faults.filter Fault.isGrammatical = m.faults.filter Fault.isGrammatical ++ noted
  words : wordsIn m.ahead = taken ++ wordsIn m'.ahead

theorem Leads.trans {m m' m'' : Moment} {done done' : List Statement} {noted noted' : List Fault}
    {taken taken' : List Word} (h : Leads m m' done noted taken)
    (h' : Leads m' m'' done' noted' taken') :
    Leads m m'' (done ++ done') (noted ++ noted') (taken ++ taken') where
  statements := by rw [h.statements, h'.statements, List.append_assoc]
  faults := h.faults.trans h'.faults
  grammatical := by rw [h'.grammatical, h.grammatical, List.append_assoc]
  words := by rw [h.words, h'.words, List.append_assoc]

section Moments

variable {s s' : State} {t : Token} {p : Position} {ahead : List Lexeme} {noted : List Fault}

/-- Two states from which the same happens. -/
theorem leads_of_events_eq (h : events s ahead = events s' ahead) :
    Leads ⟨s, ahead, noted⟩ ⟨s', ahead, noted⟩ [] [] [] where
  statements := congrArg found h
  faults := congrArg (noted ++ wrong ·) h
  grammatical := (List.append_nil _).symm
  words := rfl

/-- A lexical error is noted and disturbs nothing. -/
theorem leads_error (e : LexicalError) :
    Leads ⟨s, ⟨.error e, p⟩ :: ahead, noted⟩ ⟨s, ahead, noted ++ [e.fault]⟩ [] [] [] where
  statements := rfl
  faults := (List.append_assoc noted [e.fault] _).symm
  grammatical := List.filter_append _ _
  words := rfl

/-- A token that fits is taken. -/
theorem leads_token (ht : t ≠ .eof) {done : List Statement}
    (hstep : step s t p = (done.map .statement, s')) :
    Leads ⟨s, ⟨.ok t, p⟩ :: ahead, noted⟩ ⟨s', ahead, noted⟩ done [] [⟨t, p⟩] where
  statements := by
    have hfound : found (done.map .statement) = done := by
      rw [found, List.filterMap_map]
      exact List.filterMap_some
    rw [events, hstep, found_append, hfound]
  faults := by
    have hwrong : wrong (done.map .statement) = [] := by
      rw [wrong, List.filterMap_map]
      exact List.filterMap_eq_nil_iff.2 fun _ _ => rfl
    rw [events, hstep, wrong_append, hwrong, List.nil_append]
  grammatical := (List.append_nil _).symm
  words := wordsIn_ok ht p ahead

/-- A token that does not fit is noted, and read again by the machine that skips. -/
theorem leads_unexpected {expected : Expectation}
    (hstep : step s t p = ([unexpected expected t p], resume t p)) :
    Leads ⟨s, ⟨.ok t, p⟩ :: ahead, noted⟩
      ⟨.skipping, ⟨.ok t, p⟩ :: ahead, noted ++ [⟨p, .unexpected expected t⟩]⟩
      [] [⟨p, .unexpected expected t⟩] [] where
  statements := by
    rw [events, hstep]
    rfl
  faults := by
    rw [events, hstep, List.append_assoc]
    rfl
  grammatical := List.filter_append _ _
  words := rfl

/-- A list of fields without a comma behind it is a complete SELECT. -/
theorem leads_listing (ht : t ≠ .comma) (line : Nat) (fields : List String) :
    Leads ⟨.listing line fields, ⟨.ok t, p⟩ :: ahead, noted⟩ ⟨.ready, ⟨.ok t, p⟩ :: ahead, noted⟩
      [⟨line, .select fields⟩] [] [] where
  statements := by
    rw [events_listing ht, found_statement]
    rfl
  faults := by rw [events_listing ht, wrong_statement]
  grammatical := (List.append_nil _).symm
  words := rfl

end Moments

/-! ## The reader and the machine -/

namespace Reader

/-- The lexemes that a reader has not passed: the token in view, and those behind it. -/
def ahead (r : Reader) : List Lexeme :=
  ⟨.ok r.token, r.place⟩ :: if r.token = .eof then [] else r.cursor.lexemes

/-- The words that a reader has not passed. -/
def words (r : Reader) : List Word := wordsIn r.ahead

/-- The token in view, as a word. -/
def word (r : Reader) : Word := ⟨r.token, r.place⟩

/-- The moment at which the machine, in a given state, has passed what the reader has passed. -/
def moment (r : Reader) (s : State) : Moment := ⟨s, r.ahead, r.faults⟩

end Reader

/-- **Moving on ends.**  The machine passes the same lexical errors, in whatever state it is. -/
theorem exists_advance (r : Reader) : ∃ r', advance.run r = .some ((), r') ∧
    ∀ s, Leads ⟨s, r.cursor.lexemes, r.faults⟩ (r'.moment s) [] [] [] := by
  have hround : ∀ (b : Unit) (r : Reader), Proceeds (fun _ => passLexeme)
      (fun _ r => r.cursor.rest.length)
      (fun _ r _ r' => ∀ s, Leads ⟨s, r.cursor.lexemes, r.faults⟩ (r'.moment s) [] [] []) b r := by
    intro b r
    obtain ⟨⟨⟨result, p⟩, c⟩, hnext⟩ : ∃ next, r.cursor.next = next := ⟨_, rfl⟩
    cases result with
    | ok t =>
      refine .stop () _ (run_passLexeme_ok hnext) fun s => ?_
      rw [Cursor.lexemes_of_next_ok hnext]
      exact leads_of_events_eq rfl
    | error e =>
      obtain ⟨hlexemes, hless⟩ := Cursor.lexemes_of_next_error hnext
      refine .again () _ (run_passLexeme_error hnext) hless fun _ r' hleads s => ?_
      rw [hlexemes]
      exact (leads_error e).trans (hleads s)
  obtain ⟨⟨⟩, r', hrun, hleads⟩ := exists_iterate hround () r
  exact ⟨r', hrun, hleads⟩

section Loops

variable {α β : Type} {r r' : Reader} {s s' : State}

/-- Moving on takes the token in view, if the machine takes it too. -/
theorem exists_take (h : r.token ≠ .eof) {done : List Statement}
    (hstep : step s r.token r.place = (done.map .statement, s')) :
    ∃ r', advance.run r = .some ((), r') ∧
      Leads (r.moment s) (r'.moment s') done [] [r.word] := by
  obtain ⟨r', hrun, hleads⟩ := exists_advance r
  have htaken : Leads ⟨s, ⟨.ok r.token, r.place⟩ :: r.cursor.lexemes, r.faults⟩ (r'.moment s')
      (done ++ []) [] [r.word] := (leads_token h hstep).trans (hleads s')
  rw [List.append_nil] at htaken
  refine ⟨r', hrun, ?_⟩
  rw [Reader.moment, Reader.ahead, if_neg h]
  exact htaken

theorem Leads.words_lt {done : List Statement} {noted : List Fault} {taken : List Word}
    (h : Leads (r.moment s) (r'.moment s') done noted taken) (hne : taken ≠ []) :
    r'.words.length < r.words.length := by
  have hlength : r.words.length = taken.length + r'.words.length := by
    rw [← List.length_append]
    exact congrArg List.length h.words
  have hpos := List.length_pos_iff.2 hne
  omega

/-- A keyword is read alike by the machine that skips and by the one that is ready, and so is the
end of the text. -/
theorem leads_of_stops (h : r.Stops) : Leads (r.moment .skipping) (r.moment .ready) [] [] [] := by
  apply leads_of_events_eq
  rcases h with hkeyword | hend
  · rw [Reader.ahead, events, events, step, step, stepReady_keyword hkeyword]
  · rw [Reader.ahead, if_pos hend, hend]
    rfl

/-- **Skipping ends**, at a keyword or at the end of the text. -/
theorem exists_synchronize (r : Reader) : ∃ r' passed, synchronize.run r = .some ((), r') ∧
    Leads (r.moment .skipping) (r'.moment .ready) [] [] passed ∧ r'.Stops ∧
    (passed = [] → r.Stops) := by
  have hround : ∀ (b : Unit) (r : Reader), Proceeds (fun _ => skipToken)
      (fun _ r => r.words.length)
      (fun _ r _ r' => ∃ passed, Leads (r.moment .skipping) (r'.moment .ready) [] [] passed ∧
        r'.Stops ∧ (passed = [] → r.Stops)) b r := by
    intro b r
    by_cases hstops : r.Stops
    · exact .stop () r (run_skipToken_of_stops hstops)
        ⟨[], leads_of_stops hstops, hstops, fun _ => hstops⟩
    · obtain ⟨hplain, hend⟩ := not_or.1 hstops
      have hstep : step .skipping r.token r.place =
          (([] : List Statement).map .statement, .skipping) := by
        rw [step, resume_plain (Bool.eq_false_iff.2 hplain)]
        rfl
      obtain ⟨r₁, hadvance, hleads⟩ := exists_take hend hstep
      refine .again () r₁ (run_skipToken_of_not_stops hstops hadvance)
        (hleads.words_lt (List.cons_ne_nil _ _)) ?_
      rintro _ r' ⟨passed, hleads', hstops', -⟩
      exact ⟨r.word :: passed, hleads.trans hleads', hstops',
        fun h => absurd h (List.cons_ne_nil _ _)⟩
  obtain ⟨⟨⟩, r', hrun, passed, hpassed⟩ := exists_iterate hround () r
  exact ⟨r', passed, hrun, hpassed⟩

/-- What a phrase comes to, with the machine: from the state `s` to the one that belongs to the
result, or to the skipping behind a fault. -/
inductive Settles (r : Reader) (s : State) (done : α → List Statement) (next : α → State) :
    Except Fault α → Reader → Prop where
  | result {a : α} {r' : Reader} {taken : List Word}
      (leads : Leads (r.moment s) (r'.moment (next a)) (done a) [] taken) :
    Settles r s done next (.ok a) r'
  | fault {e : Fault} {r' : Reader} {taken : List Word}
      (leads : Leads (r.moment s) ((r'.note e).moment .skipping) [] [e] taken) :
    Settles r s done next (.error e) r'

/-- What comes behind other words is settled with them. -/
theorem Settles.after {r₁ : Reader} {done : α → List Statement} {next : α → State}
    {result : Except Fault α} {taken : List Word} (h : Settles r₁ s' done next result r')
    (hleads : Leads (r.moment s) (r₁.moment s') [] [] taken) : Settles r s done next result r' := by
  cases h with
  | result leads => exact .result (hleads.trans leads)
  | fault leads => exact .fault (hleads.trans leads)

/-- The phrase ends, and the machine goes with it. -/
def Ends (x : Phrase α) (r : Reader) (s : State) (done : α → List Statement)
    (next : α → State) : Prop :=
  ∃ result r', x.run.run r = .some (result, r') ∧ Settles r s done next result r'

namespace Ends

variable {x : Phrase α} {f : α → Phrase β} {done : β → List Statement} {next : β → State}

/-- Two phrases, one after the other. -/
theorem bind {mid : α → State} (hx : Ends x r s (fun _ => []) mid)
    (hf : ∀ a r', Ends (f a) r' (mid a) done next) : Ends (x >>= f) r s done next := by
  obtain ⟨result, r₁, hrun, hsettles⟩ := hx
  cases hsettles with
  | fault leads => exact ⟨_, r₁, run_bind_error hrun _, .fault leads⟩
  | @result a _ _ leads =>
    obtain ⟨result, r', hrun', hsettles⟩ := hf a r₁
    exact ⟨result, r', (run_bind_ok hrun _).trans hrun', hsettles.after leads⟩

/-- The result of a phrase, in another form. -/
theorem map {g : α → β} (hx : Ends x r s (fun a => done (g a)) (fun a => next (g a))) :
    Ends (do let a ← x; return g a) r s done next := by
  obtain ⟨result, r', hrun, hsettles⟩ := hx
  cases hsettles with
  | fault leads => exact ⟨_, r', run_bind_error hrun _, .fault leads⟩
  | result leads => exact ⟨_, r', run_bind_ok hrun _, .result leads⟩

end Ends

theorem extend?_eof (line : Nat) (draft : Draft) : draft.extend? line .eof = none := by
  cases draft with
  | _ => rfl

/-- A draft takes the tokens that are of the kind it expects. -/
theorem ends_expect (line : Nat) (draft : Draft) {accepts : Token → Option α}
    {done : α → List Statement} {next : α → State}
    (h : ∀ t, draft.extend? line t = (accepts t).map fun a => ((done a).map .statement, next a))
    (r : Reader) : Ends (expect draft.expects accepts) r (.drafting line draft) done next := by
  cases hkind : accepts r.token with
  | none =>
    refine ⟨_, r, run_expect_none hkind, .fault (leads_unexpected ?_)⟩
    rw [step, stepDraft, h, hkind]
    rfl
  | some a =>
    have hstep : step (.drafting line draft) r.token r.place =
        ((done a).map .statement, next a) := by
      rw [step, stepDraft, h, hkind]
      rfl
    have hend : r.token ≠ .eof := by
      intro hend
      have hnone := h r.token
      rw [hkind, hend, extend?_eof] at hnone
      cases hnone
    obtain ⟨r', hadvance, hleads⟩ := exists_take hend hstep
    exact ⟨_, r', run_expect_some hkind hadvance, .result hleads⟩

/-! What each draft makes of a token; a value is read alike at both ends of a comparison. -/

section Drafts

variable (line : Nat) (t : Token)

theorem extend?_load : Draft.load.extend? line t = t.string?.map fun path =>
    (([⟨line, .load path⟩] : List Statement).map .statement, .ready) := by
  cases t with
  | _ => rfl

theorem extend?_filterLeft (left : Value) :
    (Draft.filterLeft left).extend? line t = t.operator?.map fun op =>
      (([] : List Statement).map .statement, .drafting line (.filterOp left op)) := by
  cases t with
  | _ => rfl

theorem extend?_select (fields : List String) :
    (Draft.select fields).extend? line t = t.path?.map fun field =>
      (([] : List Statement).map .statement, .listing line (fields ++ [field])) := by
  cases t with
  | _ => rfl

theorem extend?_save : Draft.save.extend? line t = t.asWord?.map fun _ =>
    (([] : List Statement).map .statement, .drafting line .saveAs) := by
  cases t with
  | _ => rfl

theorem extend?_saveAs : Draft.saveAs.extend? line t = t.string?.map fun path =>
    (([⟨line, .save path⟩] : List Statement).map .statement, .ready) := by
  cases t with
  | _ => rfl

end Drafts

/-- **A list of fields ends**: each further field takes a comma. -/
theorem ends_moreFields (line : Nat) (fields : List String) (r : Reader) :
    Ends (moreFields fields) r (.listing line fields) (fun all => [⟨line, .select all⟩])
      (fun _ => .ready) := by
  have hround : ∀ fields r, Proceeds addField (fun _ r => r.words.length)
      (fun fields r => Settles r (.listing line fields) (fun all => [⟨line, .select all⟩])
        (fun _ => .ready)) fields r := by
    intro fields r
    by_cases hcomma : r.token = .comma
    · have hstep : step (.listing line fields) r.token r.place =
          (([] : List Statement).map .statement, .drafting line (.select fields)) := by
        rw [hcomma]
        rfl
      obtain ⟨r₁, hadvance, hleads⟩ := exists_take (by simp [hcomma]) hstep
      obtain ⟨result, r₂, hfield, hsettles⟩ :=
        ends_expect line (.select fields) (extend?_select line · fields) r₁
      cases hsettles with
      | fault leads =>
        exact .stop _ r₂ (run_addField_error hcomma hadvance hfield fields)
          (.fault (hleads.trans leads))
      | result leads =>
        have htaken := hleads.trans leads
        exact .again _ r₂ (run_addField_ok hcomma hadvance hfield fields)
          (htaken.words_lt (List.cons_ne_nil _ _)) fun _ r' h => h.after htaken
    · exact .stop _ r (run_addField_stop hcomma fields)
        (.result (leads_listing hcomma line fields))
  obtain ⟨result, r', hrun, hsettles⟩ := exists_iterate hround fields r
  exact ⟨result, r', hrun, hsettles⟩

/-- A keyword opens the same clause in the descent and in the machine. -/
theorem exists_clause {t : Token} (h : t.startsCommand) :
    ∃ draft clause, Draft.open? t = some draft ∧ clause? t = some clause ∧ ∀ line r,
      Ends clause r (.drafting line draft) (fun c => [⟨line, c⟩]) (fun _ => .ready) := by
  cases t with
  | load =>
    refine ⟨_, _, rfl, rfl, fun line r => ?_⟩
    exact Ends.map (ends_expect line .load (extend?_load line) r)
  | filter =>
    refine ⟨_, _, rfl, rfl, fun line r => ?_⟩
    refine (ends_expect line .filter (fun t => rfl) r).bind fun left r₁ => ?_
    refine (ends_expect line (.filterLeft left) (extend?_filterLeft line · left) r₁).bind
      fun op r₂ => ?_
    exact Ends.map (ends_expect line (.filterOp left op) (fun t => rfl) r₂)
  | select =>
    refine ⟨_, _, rfl, rfl, fun line r => ?_⟩
    refine (ends_expect line (.select []) (extend?_select line · []) r).bind fun field r₁ => ?_
    exact Ends.map (ends_moreFields line [field] r₁)
  | save =>
    refine ⟨_, _, rfl, rfl, fun line r => ?_⟩
    refine (ends_expect line .save (extend?_save line) r).bind fun _ r₁ => ?_
    exact Ends.map (ends_expect line .saveAs (extend?_saveAs line) r₁)
  | _ => cases h

theorem clause?_eq_none {t : Token} (h : t.startsCommand = false) : clause? t = none := by
  cases t with
  | load | filter | select | save => cases h
  | _ => rfl

/-! ## The outer loop -/

/-- A statement is read, or a fault is found.  A fault in front of which no word was taken stands at
a token that does not end the skipping behind it. -/
theorem exists_command (h : r.token ≠ .eof) :
    (∃ st r' taken, command.run.run r = .some (.ok st, r') ∧
      Leads (r.moment .ready) (r'.moment .ready) [st] [] (r.word :: taken)) ∨
    (∃ e r' taken, command.run.run r = .some (.error e, r') ∧
      Leads (r.moment .ready) ((r'.note e).moment .skipping) [] [e] taken ∧
      (taken = [] → ¬ (r'.note e).Stops)) := by
  cases hkeyword : r.token.startsCommand with
  | false =>
    refine .inr ⟨_, r, [], run_command_none (clause?_eq_none hkeyword), leads_unexpected ?_,
      fun _ => not_or.2 ⟨Bool.eq_false_iff.1 hkeyword, h⟩⟩
    rw [step, stepReady_plain hkeyword h, resume_plain hkeyword]
  | true =>
    obtain ⟨draft, clause, hopen, hclause, hends⟩ := exists_clause hkeyword
    have hstep : step .ready r.token r.place =
        (([] : List Statement).map .statement, .drafting r.place.line draft) := by
      rw [step, stepReady, hopen]
      rfl
    obtain ⟨r₁, hadvance, hleads⟩ := exists_take h hstep
    have hcommand := run_command_some hclause hadvance
    have hbody : Ends (do let c ← clause; return (⟨r.place.line, c⟩ : Statement)) r₁
        (.drafting r.place.line draft) (fun st => [st]) (fun _ => .ready) :=
      Ends.map (hends r.place.line r₁)
    obtain ⟨result, r', hrun, hsettles⟩ := hbody
    cases hsettles with
    | result leads => exact .inl ⟨_, r', _, hcommand.trans hrun, hleads.trans leads⟩
    | fault leads =>
      exact .inr ⟨_, r', _, hcommand.trans hrun, hleads.trans leads,
        fun hnil => absurd hnil (List.cons_ne_nil _ _)⟩

/-- **One round takes a word**, and settles one statement or one fault of grammar. -/
theorem exists_round (h : r.token ≠ .eof) : ∃ s? r' noted taken, round.run r = .some (s?, r') ∧
    Leads (r.moment .ready) (r'.moment .ready) s?.toList noted taken ∧
    s?.toList.length + noted.length = 1 ∧ taken ≠ [] := by
  rcases exists_command h with ⟨st, r', taken, hrun, hleads⟩ | ⟨e, r₁, taken, hrun, hleads, hstops⟩
  · exact ⟨some st, r', [], _, run_round_ok hrun, hleads, rfl, List.cons_ne_nil _ _⟩
  · obtain ⟨r', passed, hskip, hleads', -, hpassed⟩ := exists_synchronize (r₁.note e)
    refine ⟨none, r', [e], taken ++ passed, run_round_error hrun hskip, hleads.trans hleads', rfl,
      ?_⟩
    -- Either the statement took a word, or the skipping does not stop where it starts.
    intro hnil
    obtain ⟨htaken, hpassed'⟩ := List.append_eq_nil_iff.1 hnil
    exact hstops htaken (hpassed hpassed')

/-- **The outer loop ends**, at the end of the text, after as many rounds as there are words at
most. -/
theorem exists_program (r : Reader) (read : List Statement) :
    ∃ r' done noted taken, (program read).run r = .some (read ++ done, r') ∧ r'.token = .eof ∧
      Leads (r.moment .ready) (r'.moment .ready) done noted taken ∧
      done.length + noted.length ≤ taken.length := by
  have hround : ∀ read r, Proceeds addStatement (fun _ r => r.words.length)
      (fun read r all r' => ∃ done noted taken, all = read ++ done ∧ r'.token = .eof ∧
        Leads (r.moment .ready) (r'.moment .ready) done noted taken ∧
        done.length + noted.length ≤ taken.length) read r := by
    intro read r
    by_cases hend : r.token = .eof
    · exact .stop read r (run_addStatement_eof hend read)
        ⟨[], [], [], (List.append_nil read).symm, hend, leads_of_events_eq rfl, Nat.le_refl _⟩
    · obtain ⟨s?, r₁, noted, taken, hround, hleads, hone, hne⟩ := exists_round hend
      refine .again _ r₁ (run_addStatement_round hend hround read) (hleads.words_lt hne) ?_
      rintro all r' ⟨done, noted', taken', hall, hend', hleads', hle⟩
      refine ⟨s?.toList ++ done, noted ++ noted', taken ++ taken', ?_, hend', hleads.trans hleads',
        ?_⟩
      · rw [hall, List.append_assoc]
      · have hpos := List.length_pos_iff.2 hne
        simp only [List.length_append]
        omega
  obtain ⟨all, r', hrun, done, noted, taken, rfl, hpost⟩ := exists_iterate hround read r
  exact ⟨r', done, noted, taken, hrun, hpost⟩

end Loops

/-- From a reader each loop ends, and each round of the outer one takes a word. -/
structure LoopsEnd (r : Reader) : Prop where
  moves_on : ∃ r', advance.run r = .some ((), r')
  skips : ∃ r', synchronize.run r = .some ((), r') ∧ r'.Stops
  lists : ∀ fields, ∃ result r', (moreFields fields).run.run r = .some (result, r')
  reads : ∀ read, ∃ all r', (program read).run r = .some (all, r') ∧ r'.token = .eof
  /-- Where no word is taken, nothing is read, and the skipping that follows does not stop. -/
  commands : r.token ≠ .eof → ∃ result r' taken, command.run.run r = .some (result, r') ∧
    r.words = taken ++ r'.words ∧ (taken = [] → (∃ e, result = .error e) ∧ ¬ r'.Stops)
  /-- A round settles one statement or one fault of grammar. -/
  rounds : r.token ≠ .eof → ∃ s? r' taken, round.run r = .some (s?, r') ∧
    r.words = taken ++ r'.words ∧ taken ≠ [] ∧
    s?.toList.length + (r'.faults.filter Fault.isGrammatical).length =
      (r.faults.filter Fault.isGrammatical).length + 1

theorem loopsEnd (r : Reader) : LoopsEnd r where
  moves_on := by
    obtain ⟨r', hrun, -⟩ := exists_advance r
    exact ⟨r', hrun⟩
  skips := by
    obtain ⟨r', passed, hrun, -, hstops, -⟩ := exists_synchronize r
    exact ⟨r', hrun, hstops⟩
  lists fields := by
    obtain ⟨result, r', hrun, -⟩ := ends_moreFields 0 fields r
    exact ⟨result, r', hrun⟩
  reads read := by
    obtain ⟨r', done, noted, taken, hrun, hend, -⟩ := exists_program r read
    exact ⟨_, r', hrun, hend⟩
  commands h := by
    rcases exists_command h with
      ⟨st, r', taken, hrun, hleads⟩ | ⟨e, r', taken, hrun, hleads, hstops⟩
    · exact ⟨_, r', _, hrun, hleads.words, fun hnil => absurd hnil (List.cons_ne_nil _ _)⟩
    · exact ⟨_, r', taken, hrun, hleads.words, fun hnil => ⟨⟨e, rfl⟩, hstops hnil⟩⟩
  rounds h := by
    obtain ⟨s?, r', noted, taken, hrun, hleads, hone, hne⟩ := exists_round h
    have hnoted : r'.faults.filter Fault.isGrammatical =
        r.faults.filter Fault.isGrammatical ++ noted := hleads.grammatical
    refine ⟨s?, r', taken, hrun, hleads.words, hne, ?_⟩
    rw [hnoted, List.length_append]
    omega

/-- Where a reader has come to the end of the text, nothing is left for the machine: what it finds
in all has been found. -/
theorem Leads.at_end {m : Moment} {r : Reader} {done : List Statement} {noted : List Fault}
    {taken : List Word} (h : Leads m (r.moment .ready) done noted taken) (hend : r.token = .eof) :
    found (events m.state m.ahead) = done ∧ m.faults ++ wrong (events m.state m.ahead) = r.faults ∧
      wordsIn m.ahead = taken := by
  have hahead : (r.moment .ready).ahead = [⟨.ok .eof, r.place⟩] := by
    rw [Reader.moment, Reader.ahead, if_pos hend, hend]
  obtain ⟨hstatements, hfaults, -, hwords⟩ := h
  rw [hahead] at hstatements hfaults hwords
  exact ⟨hstatements.trans (List.append_nil done), hfaults.trans (List.append_nil r.faults),
    hwords.trans (List.append_nil taken)⟩

/-- What the loops find on a text is what the machine finds, and it is no more than there are
words. -/
theorem exists_readAll (source : String) : ∃ r,
    readAll.run (.ofString source) = .some (statements (Cursor.ofString source).lexemes, r) ∧
      r.faults = faults (Cursor.ofString source).lexemes ∧
      (statements (Cursor.ofString source).lexemes).length +
        (r.faults.filter Fault.isGrammatical).length ≤ (wordsOf source).length := by
  obtain ⟨r₀, hadvance, hstart⟩ := exists_advance (.ofString source)
  obtain ⟨r, done, noted, taken, hprogram, hend, hleads, hle⟩ := exists_program r₀ []
  have hall := (hstart .ready).trans hleads
  have hnoted : r.faults.filter Fault.isGrammatical = noted := hall.grammatical
  obtain ⟨hstatements, hfaults, hwords⟩ := hall.at_end hend
  have hdone : statements (Cursor.ofString source).lexemes = done := hstatements
  have htaken : wordsOf source = taken := hwords
  refine ⟨r, ?_, hfaults.symm, ?_⟩
  · rw [readAll, run_bind_some hadvance, hdone]
    exact hprogram
  · rw [hdone, hnoted, htaken]
    exact hle

/-- **The descent ends** on every text, with the outcome of the parser. -/
theorem descend_eq_parse (source : String) : descend source = .some (parse source) := by
  obtain ⟨r, hrun, hfaults, -⟩ := exists_readAll source
  rw [descend, hrun, Part.map_some, Reader.outcome, hfaults]
  rfl

end Descent

/-- The characters that the calls on a text have passed, and those behind the cursor, are those of
the text. -/
theorem offsetAfter_add_rest (source : String) (i : Nat) :
    offsetAfter source i + ((Cursor.ofString source).drop i).rest.length =
      source.toList.length := by
  obtain ⟨pre, hpre⟩ := Cursor.exists_stands_drop source i
  rw [offsetAfter_eq_of_stands hpre, ← List.length_append, ← hpre.split]

/-- A call on a text moves the cursor on, unless it finds the end. -/
theorem offsetAfter_lt {source : String} {i : Nat}
    (h : ((Cursor.ofString source).drop i).next.1.result ≠ .ok .eof) :
    offsetAfter source i < offsetAfter source (i + 1) := by
  obtain ⟨pre, hpre⟩ := Cursor.exists_stands_drop source i
  obtain ⟨gap, taken, hnext, hreads⟩ := hpre.reads_next
  rw [← Cursor.drop_succ] at hnext
  rw [offsetAfter_eq_of_stands hpre, offsetAfter_eq_of_stands hnext]
  exact Nat.lt_of_le_of_lt hreads.start_le (hreads.progress fun hend => h (hreads.eof_iff.2 hend))

open Descent in
/-- **Parsing ends on every text, and within its words.**  A call of the lexer that does not find
the end of the text moves the cursor on, and none moves it beyond the end.  From every reader the
loops end that move to the next token, that skip to the next keyword, that list the fields of a
SELECT and that read statements; and each round of the last one takes a word, whether a statement is
read, or fails after some of its words, or fails at its first.  So the whole descent ends, with the
outcome of the parser, and its statements and faults of grammar are together no more than the words
of the text. -/
theorem descent_ends_within_words (source : String) :
    (∀ i, offsetAfter source i + ((Cursor.ofString source).drop i).rest.length =
        source.toList.length ∧
      (((Cursor.ofString source).drop i).next.1.result ≠ .ok .eof →
        offsetAfter source i < offsetAfter source (i + 1))) ∧
    (∀ r, LoopsEnd r) ∧
    descend source = .some (parse source) ∧
    ∃ r, readAll.run (.ofString source) = .some (statements (Cursor.ofString source).lexemes, r) ∧
      r.faults = faults (Cursor.ofString source).lexemes ∧
      (statements (Cursor.ofString source).lexemes).length +
        (r.faults.filter Fault.isGrammatical).length ≤ (wordsOf source).length :=
  ⟨fun i => ⟨offsetAfter_add_rest source i, offsetAfter_lt⟩, loopsEnd, descend_eq_parse source,
    exists_readAll source⟩

end QueryPipeline
