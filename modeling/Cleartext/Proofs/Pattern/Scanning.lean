import Cleartext.Proofs.Pattern.Matching

/-!
# Scanning for templates

What a scan finds, without the order in which it looks.  `Walk` goes over the positions from
left to right, takes the first template that matches, and goes on behind its window.
`Halted` is a walk that comes to a template that stumbles.

* `scan_cases`: a scan is a walk, or it is a walk as far as a template that stumbles, and
  then it has no answer.
* `scan_walks`: where members are named wherever they are looked for (`NamesMembers`), the
  scan is the walk.
-/

namespace Cleartext.Pattern

variable {pool : Pool} {body? : Option MethodBody} {templates : List Template} {t : Template}
  {instructions rest : List Instruction} {ins : Instruction} {i : Nat}

/-- A walk over the positions from `i` on: those that it visits, and the matches. -/
inductive Walk (pool : Pool) (body? : Option MethodBody) (templates : List Template)
    (instructions : List Instruction) : Nat → List Nat → List Match → Prop
  | done {i : Nat} : instructions.length ≤ i → Walk pool body? templates instructions i [] []
  /-- The first template that matches is taken, and the walk goes on behind its window. -/
  | take {i : Nat} {earlier later : List Template} {t : Template} {visited : List Nat}
      {matches_ : List Match} : templates = earlier ++ t :: later →
      (∀ e ∈ earlier, ¬ e.Matches pool body? instructions i) →
      t.Matches pool body? instructions i →
      Walk pool body? templates instructions (i + t.steps.length) visited matches_ →
      Walk pool body? templates instructions i (i :: visited) (t.found pool instructions i :: matches_)
  | skip {i : Nat} {visited : List Nat} {matches_ : List Match} : i < instructions.length →
      (∀ t ∈ templates, ¬ t.Matches pool body? instructions i) →
      Walk pool body? templates instructions (i + 1) visited matches_ →
      Walk pool body? templates instructions i (i :: visited) matches_

/-- A walk from `i` on that comes to a template that stumbles, and the matches before.  The
templates before the one that is taken, or that stumbles, are tried in vain. -/
inductive Halted (pool : Pool) (body? : Option MethodBody) (templates : List Template)
    (instructions : List Instruction) : Nat → List Match → Prop
  | here {i : Nat} {earlier later : List Template} {t : Template} :
      templates = earlier ++ t :: later →
      (∀ e ∈ earlier, ¬ e.Matches pool body? instructions i ∧ ¬ e.Stumbles pool body? instructions i) →
      t.Stumbles pool body? instructions i → Halted pool body? templates instructions i []
  | take {i : Nat} {earlier later : List Template} {t : Template} {matches_ : List Match} :
      templates = earlier ++ t :: later →
      (∀ e ∈ earlier, ¬ e.Matches pool body? instructions i ∧ ¬ e.Stumbles pool body? instructions i) →
      t.Matches pool body? instructions i →
      Halted pool body? templates instructions (i + t.steps.length) matches_ →
      Halted pool body? templates instructions i (t.found pool instructions i :: matches_)
  | skip {i : Nat} {matches_ : List Match} :
      (∀ t ∈ templates, ¬ t.Matches pool body? instructions i ∧ ¬ t.Stumbles pool body? instructions i) →
      Halted pool body? templates instructions (i + 1) matches_ →
      Halted pool body? templates instructions i matches_

/-! ## The walk -/

section

variable {barriers : List Int} {fuel : Nat} {m : Match}

/-- Where no template matches, the scan goes on with the next instruction. -/
theorem scanFrom_skip (h : firstMatch pool barriers (ins :: rest) templates = .ok none) :
    scanFrom pool barriers templates (fuel + 1) (ins :: rest) =
      scanFrom pool barriers templates (fuel + 1) rest := by
  have hnext : next? pool barriers templates (ins :: rest) = next? pool barriers templates rest := by
    rw [next?, h]
    rfl
  rw [scanFrom, scanFrom, hnext]

/-- Behind a match the scan goes on with what follows its instructions. -/
theorem scanFrom_take (h : firstMatch pool barriers (ins :: rest) templates = .ok (some m)) :
    scanFrom pool barriers templates (fuel + 1) (ins :: rest) =
      .ok m :: scanFrom pool barriers templates fuel (rest.drop (m.instructions.length - 1)) := by
  have hnext : next? pool barriers templates (ins :: rest) =
      .ok (some (m, rest.drop (m.instructions.length - 1))) := by
    rw [next?, h]
    rfl
  rw [scanFrom, hnext]

end

theorem scanFrom_nil {barriers : List Int} (fuel : Nat) :
    scanFrom pool barriers templates fuel [] = [] := by
  cases fuel <;> rfl

/-- Where a template that is tried stumbles, the scan ends without an answer. -/
theorem scanFrom_halt {barriers : List Int} {fuel : Nat} {e : Error}
    (h : firstMatch pool barriers (ins :: rest) templates = .error e) :
    scanFrom pool barriers templates (fuel + 1) (ins :: rest) = [.error e] := by
  have hnext : next? pool barriers templates (ins :: rest) = .error e := by
    rw [next?, h]
    rfl
  rw [scanFrom, hnext]

/-- A walk visits positions of the code, each of them once. -/
theorem Walk.visits {visited : List Nat} {matches_ : List Match}
    (h : Walk pool body? templates instructions i visited matches_) :
    visited.Pairwise (· < ·) ∧ ∀ k ∈ visited, i ≤ k ∧ k < instructions.length := by
  induction h with
  | done hi => exact ⟨.nil, by simp⟩
  | take htemplates hearlier hmatches hwalk ih =>
    obtain ⟨hpairwise, hrange⟩ := ih
    have hpos := List.length_pos_iff.2 hmatches.steps
    have hroom := hmatches.room
    refine ⟨.cons (fun k hk => ?_) hpairwise, List.forall_mem_cons.2 ⟨by omega, fun k hk => ?_⟩⟩
    · have := hrange k hk
      omega
    · have := hrange k hk
      omega
  | skip hi hnone hwalk ih =>
    obtain ⟨hpairwise, hrange⟩ := ih
    refine ⟨.cons (fun k hk => ?_) hpairwise, List.forall_mem_cons.2 ⟨by omega, fun k hk => ?_⟩⟩
    · have := hrange k hk
      omega
    · have := hrange k hk
      omega

/-- The first of some templates that matches is one template. -/
theorem first_unique {P : Template → Prop} {earlier earlier' later later' : List Template}
    {t t' : Template} (heq : earlier ++ t :: later = earlier' ++ t' :: later')
    (hearlier : ∀ e ∈ earlier, ¬ P e) (hearlier' : ∀ e ∈ earlier', ¬ P e) (ht : P t) (ht' : P t') :
    t = t' := by
  induction earlier generalizing earlier' with
  | nil =>
    cases earlier' with
    | nil => exact (List.cons.inj heq).1
    | cons e earlier' =>
      obtain ⟨rfl, -⟩ := List.cons.inj heq
      exact absurd ht (hearlier' t (by simp))
  | cons e earlier ih =>
    cases earlier' with
    | nil =>
      obtain ⟨rfl, -⟩ := List.cons.inj heq
      exact absurd ht' (hearlier e (by simp))
    | cons e' earlier' =>
      obtain ⟨-, heq⟩ := List.cons.inj heq
      exact ih heq (List.forall_mem_cons.1 hearlier).2 (List.forall_mem_cons.1 hearlier').2

/-- There is one walk from a position. -/
theorem Walk.unique {visited visited' : List Nat} {matches_ matches' : List Match}
    (h : Walk pool body? templates instructions i visited matches_)
    (h' : Walk pool body? templates instructions i visited' matches') :
    visited = visited' ∧ matches_ = matches' := by
  induction h generalizing visited' matches' with
  | done hi =>
    cases h' with
    | done => exact ⟨rfl, rfl⟩
    | take _ _ hmatches _ =>
      have hroom := hmatches.room
      have hpos := List.length_pos_iff.2 hmatches.steps
      omega
    | skip hi' => omega
  | take htemplates hearlier hmatches hwalk ih =>
    cases h' with
    | done hi =>
      have hroom := hmatches.room
      have hpos := List.length_pos_iff.2 hmatches.steps
      omega
    | take htemplates' hearlier' hmatches' hwalk' =>
      obtain rfl := first_unique (htemplates.symm.trans htemplates') hearlier hearlier' hmatches hmatches'
      obtain ⟨rfl, rfl⟩ := ih hwalk'
      exact ⟨rfl, rfl⟩
    | skip _ hnone _ => exact absurd hmatches (hnone _ (by simp [htemplates]))
  | skip hi hnone hwalk ih =>
    cases h' with
    | done hi' => omega
    | take htemplates' _ hmatches' _ => exact absurd hmatches' (hnone _ (by simp [htemplates']))
    | skip _ _ hwalk' =>
      obtain ⟨rfl, rfl⟩ := ih hwalk'
      exact ⟨rfl, rfl⟩

theorem Template.Stumbles.lt_length (h : t.Stumbles pool body? instructions i) :
    i < instructions.length := by
  obtain ⟨k, -, -, s, ins, -, hins, -⟩ := h
  have := (List.getElem?_eq_some_iff.1 hins).1
  omega

theorem Halted.lt_length {matches_ : List Match}
    (h : Halted pool body? templates instructions i matches_) : i < instructions.length := by
  induction h with
  | here _ _ hstumbles => exact hstumbles.lt_length
  | take _ _ _ _ ih => omega
  | skip _ _ ih => omega

/-- A template was taken at a position, so the walk is not halted there. -/
theorem not_halted_of_matches {earlier later : List Template}
    (htemplates : templates = earlier ++ t :: later)
    (hearlier : ∀ e ∈ earlier, ¬ e.Matches pool body? instructions i ∧
      ¬ e.Stumbles pool body? instructions i)
    (hmatches : t.Matches pool body? instructions i)
    (hnext : ∀ matches_, ¬ Halted pool body? templates instructions (i + t.steps.length) matches_)
    (matches_ : List Match) : ¬ Halted pool body? templates instructions i matches_ := by
  have hfirst {earlier' later' : List Template} {t' : Template}
      (htemplates' : templates = earlier' ++ t' :: later')
      (hearlier' : ∀ e ∈ earlier', ¬ e.Matches pool body? instructions i ∧
        ¬ e.Stumbles pool body? instructions i)
      (ht' : t'.Matches pool body? instructions i ∨ t'.Stumbles pool body? instructions i) : t = t' :=
    first_unique (P := fun t => t.Matches pool body? instructions i ∨ t.Stumbles pool body? instructions i)
      (htemplates.symm.trans htemplates') (fun e he => not_or.2 (hearlier e he))
      (fun e he => not_or.2 (hearlier' e he)) (.inl hmatches) ht'
  intro h
  cases h with
  | here htemplates' hearlier' hstumbles =>
    obtain rfl := hfirst htemplates' hearlier' (.inr hstumbles)
    exact hmatches.not_stumbles hstumbles
  | take htemplates' hearlier' hmatches' hrest =>
    obtain rfl := hfirst htemplates' hearlier' (.inl hmatches')
    exact hnext _ hrest
  | skip hnone => exact (hnone t (by simp [htemplates])).1 hmatches

/-- What a search comes to, from every position on: the first position at which a template
matches, and the first one that does there; or the position at which one stumbles before. -/
theorem next?_cases (pool : Pool) (body? : Option MethodBody) (templates : List Template)
    (instructions : List Instruction) (i : Nat) :
    (next? pool (barriersIn body? instructions) templates (instructions.drop i) = .ok none ∧
      ∀ k, i ≤ k → ∀ t ∈ templates, ¬ t.Matches pool body? instructions k) ∨
    ∃ (k : Nat) (earlier : List Template) (t : Template) (later : List Template), i ≤ k ∧
      (∀ j, i ≤ j → j < k → ∀ t ∈ templates, ¬ t.Matches pool body? instructions j) ∧
      templates = earlier ++ t :: later ∧ (∀ e ∈ earlier, ¬ e.Matches pool body? instructions k) ∧
      (t.Matches pool body? instructions k ∧
          next? pool (barriersIn body? instructions) templates (instructions.drop i) =
            .ok (some (t.found pool instructions k, instructions.drop (k + t.steps.length))) ∨
        t.Stumbles pool body? instructions k ∧
          next? pool (barriersIn body? instructions) templates (instructions.drop i) =
            .error .collapsed) := by
  induction hn : instructions.length - i using Nat.strongRecOn generalizing i with
  | ind n ih =>
    by_cases hi : instructions.length ≤ i
    · rw [List.drop_eq_nil_of_le hi]
      refine .inl ⟨rfl, fun k hk t _ hmatches => ?_⟩
      have hpos := List.length_pos_iff.2 hmatches.steps
      have hroom := hmatches.room
      omega
    · have hdrop := List.drop_eq_getElem_cons (Nat.lt_of_not_le hi)
      rcases firstMatch_cases pool body? instructions templates i with
        ⟨hnone, hfirst⟩ | ⟨earlier, t, later, htemplates, hearlier, hend⟩
      · have hskip : next? pool (barriersIn body? instructions) templates (instructions.drop i) =
            next? pool (barriersIn body? instructions) templates (instructions.drop (i + 1)) := by
          rw [hdrop] at hfirst ⊢
          rw [next?, hfirst]
          rfl
        have hhere (j : Nat) (hij : i ≤ j) (hj : ¬ i + 1 ≤ j) :
            ∀ t ∈ templates, ¬ t.Matches pool body? instructions j := by
          obtain rfl : i = j := by omega
          exact fun t ht => (hnone t ht).1
        rw [hskip]
        rcases ih _ (by omega) (i + 1) rfl with ⟨hnext, hno⟩ | ⟨k, earlier, t, later, hk, hgap, hrest⟩
        · refine .inl ⟨hnext, fun k hk => ?_⟩
          by_cases hk' : i + 1 ≤ k
          · exact hno k hk'
          · exact hhere k hk hk'
        · refine .inr ⟨k, earlier, t, later, by omega, fun j hij hjk => ?_, hrest⟩
          by_cases hj : i + 1 ≤ j
          · exact hgap j hj hjk
          · exact hhere j hij hj
      · refine .inr ⟨i, earlier, t, later, Nat.le_refl i, fun j hij hji => by omega, htemplates,
          fun e he => (hearlier e he).1, ?_⟩
        rcases hend with ⟨hmatches, hfirst⟩ | ⟨hstumbles, hfirst⟩
        · have hpos := List.length_pos_iff.2 hmatches.steps
          have hlength : (t.found pool instructions i).instructions.length = t.steps.length :=
            hmatches.length_window
          refine .inl ⟨hmatches, ?_⟩
          rw [hdrop] at hfirst ⊢
          rw [next?, hfirst]
          show Except.ok (some (_, List.drop _ (List.drop (i + 1) instructions))) = _
          rw [hlength, List.drop_drop, show i + 1 + (t.steps.length - 1) = i + t.steps.length by omega]
        · refine .inr ⟨hstumbles, ?_⟩
          rw [hdrop] at hfirst ⊢
          rw [next?, hfirst]
          rfl

/-- Where members are named, no template stumbles. -/
theorem not_stumbles_of_namesMembers (h : NamesMembers pool instructions) :
    ¬ t.Stumbles pool body? instructions i := by
  rintro ⟨k, -, -, s, ins, -, hins, hs, -⟩
  exact hs.strays (h ins (List.mem_of_getElem? hins))

/-- Where no template matches, a search comes upon nothing, unless one stumbles. -/
theorem next?_of_not_matches (h : ∀ t ∈ templates, ∀ k, ¬ t.Matches pool body? instructions k) :
    next? pool (barriersIn body? instructions) templates instructions = .ok none ∨
      next? pool (barriersIn body? instructions) templates instructions = .error .collapsed ∧
        ¬ NamesMembers pool instructions := by
  have hcases := next?_cases pool body? templates instructions 0
  rw [List.drop_zero] at hcases
  rcases hcases with ⟨hnext, -⟩ | ⟨k, earlier, t, later, -, -, htemplates, -,
    ⟨hmatches, -⟩ | ⟨hstumbles, hnext⟩⟩
  · exact .inl hnext
  · exact absurd hmatches (h t (by simp [htemplates]) k)
  · exact .inr ⟨hnext, fun hnames => not_stumbles_of_namesMembers hnames hstumbles⟩

theorem scan_of_none {barriers : List Int}
    (h : next? pool barriers templates instructions = .ok none) :
    scan pool barriers templates instructions = [] := by
  unfold scan
  cases instructions.length with
  | zero => rfl
  | succ n => rw [scanFrom, h]

theorem scan_of_error {barriers : List Int} {e : Error}
    (h : next? pool barriers templates instructions = .error e) :
    scan pool barriers templates instructions = [.error e] := by
  cases instructions with
  | nil => cases h
  | cons ins rest => rw [scan, List.length_cons, scanFrom, h]

/-- Where members are named, nothing halts a walk. -/
theorem not_halted_of_namesMembers (h : NamesMembers pool instructions) {matches_ : List Match} :
    ¬ Halted pool body? templates instructions i matches_ := by
  intro hhalted
  induction hhalted with
  | here _ _ hstumbles => exact not_stumbles_of_namesMembers h hstumbles
  | take _ _ _ _ ih => exact ih
  | skip _ _ ih => exact ih

/-- From every position on, the scan is a walk, or it is halted, as long as there is fuel for
each instruction that is left. -/
theorem scanFrom_cases (pool : Pool) (body? : Option MethodBody) (templates : List Template)
    (instructions : List Instruction) (i fuel : Nat) (hfuel : instructions.length ≤ i + fuel) :
    (∃ visited matches_, scanFrom pool (barriersIn body? instructions) templates fuel
        (instructions.drop i) = matches_.map .ok ∧
      Walk pool body? templates instructions i visited matches_ ∧
      ∀ matches', ¬ Halted pool body? templates instructions i matches') ∨
    ∃ matches_, scanFrom pool (barriersIn body? instructions) templates fuel
        (instructions.drop i) = matches_.map .ok ++ [Except.error Error.collapsed] ∧
      Halted pool body? templates instructions i matches_ := by
  induction hn : instructions.length - i using Nat.strongRecOn generalizing i fuel with
  | ind n ih =>
    by_cases hi : instructions.length ≤ i
    · rw [List.drop_eq_nil_of_le hi, scanFrom_nil]
      exact .inl ⟨[], [], rfl, .done hi, fun _ h => absurd h.lt_length (Nat.not_lt.2 hi)⟩
    · obtain ⟨fuel, rfl⟩ : ∃ fuel', fuel = fuel' + 1 := ⟨fuel - 1, by omega⟩
      have hdrop := List.drop_eq_getElem_cons (Nat.lt_of_not_le hi)
      rcases firstMatch_cases pool body? instructions templates i with
        ⟨hnone, hfirst⟩ | ⟨earlier, t, later, htemplates, hearlier, ⟨hmatches, hfirst⟩ |
          ⟨hstumbles, hfirst⟩⟩ <;> rw [hdrop] at hfirst
      · rw [hdrop, scanFrom_skip hfirst]
        rcases ih _ (by omega) (i + 1) (fuel + 1) (by omega) rfl with
          ⟨visited, matches_, hscan, hwalk, hon⟩ | ⟨matches_, hscan, hhalted⟩
        · refine .inl ⟨i :: visited, matches_, hscan, .skip (Nat.lt_of_not_le hi)
            (fun t ht => (hnone t ht).1) hwalk, fun matches' h => ?_⟩
          cases h with
          | here htemplates _ hstumbles => exact (hnone _ (by simp [htemplates])).2 hstumbles
          | take htemplates _ hmatches => exact (hnone _ (by simp [htemplates])).1 hmatches
          | skip _ h => exact hon _ h
        · exact .inr ⟨matches_, hscan, .skip hnone hhalted⟩
      · have hpos := List.length_pos_iff.2 hmatches.steps
        have hlength : (t.found pool instructions i).instructions.length = t.steps.length :=
          hmatches.length_window
        rw [hdrop, scanFrom_take hfirst, hlength, List.drop_drop,
          show i + 1 + (t.steps.length - 1) = i + t.steps.length by omega]
        rcases ih _ (by omega) (i + t.steps.length) fuel (by omega) rfl with
          ⟨visited, matches_, hscan, hwalk, hon⟩ | ⟨matches_, hscan, hhalted⟩ <;> rw [hscan]
        · exact .inl ⟨i :: visited, _ :: matches_, rfl,
            .take htemplates (fun e he => (hearlier e he).1) hmatches hwalk,
            not_halted_of_matches htemplates hearlier hmatches hon⟩
        · exact .inr ⟨_ :: matches_, rfl, .take htemplates hearlier hmatches hhalted⟩
      · rw [hdrop, scanFrom_halt hfirst]
        exact .inr ⟨[], rfl, .here htemplates hearlier hstumbles⟩

/-- What a match of a walk is: it covers the instructions at its steps, and it binds every
name to what the name is used for first. -/
structure Match.Spans (pool : Pool) (instructions : List Instruction) (m : Match) (i : Nat) : Prop where
  window : m.instructions = m.template.window instructions i
  start : ∃ ins, instructions[i]? = some ins ∧ m.start = ins.offset
  stop : ∃ ins, instructions[i + m.template.steps.length - 1]? = some ins ∧ m.stop = ins.next
  bindings : ∀ name, m.bindings.lookup name =
    (usesOf pool m.template.steps m.instructions).lookup name

theorem Template.Matches.spans (h : t.Matches pool body? instructions i) :
    (t.found pool instructions i).Spans pool instructions i := by
  have hpos := List.length_pos_iff.2 h.steps
  have hroom := h.room
  have hget (k : Nat) (hk : k < t.steps.length) :
      (t.window instructions i)[k]? = instructions[i + k]? := by
    rw [window, List.getElem?_take_of_lt hk, List.getElem?_drop]
  refine ⟨rfl, ?_, ?_, lookup_firstUses _⟩
  · have hi : instructions[i]? = some instructions[i] := List.getElem?_eq_getElem (by omega)
    refine ⟨_, hi, ?_⟩
    have hhead : (t.window instructions i).head? = some instructions[i] := by
      rw [List.head?_eq_getElem?, hget 0 hpos, Nat.add_zero, hi]
    simp [Match.start, found, hhead]
  · have hlast : instructions[i + t.steps.length - 1]? = some instructions[i + t.steps.length - 1] :=
      List.getElem?_eq_getElem (by omega)
    refine ⟨_, hlast, ?_⟩
    have hend : (t.window instructions i).getLast? = some instructions[i + t.steps.length - 1] := by
      rw [List.getLast?_eq_getElem?, h.length_window, hget _ (by omega), ← hlast]
      congr 1
      omega
    simp [Match.stop, found, hend]

/-- The matches of a walk span instructions from positions that were visited. -/
theorem Walk.spans {visited : List Nat} {matches_ : List Match}
    (h : Walk pool body? templates instructions i visited matches_) :
    ∀ m ∈ matches_, ∃ k ∈ visited, m.Spans pool instructions k := by
  induction h with
  | done => simp
  | take _ _ hmatches _ ih =>
    refine List.forall_mem_cons.2 ⟨⟨_, List.mem_cons_self, hmatches.spans⟩, fun m hm => ?_⟩
    obtain ⟨k, hk, hspans⟩ := ih m hm
    exact ⟨k, List.mem_cons_of_mem _ hk, hspans⟩
  | skip _ _ _ ih =>
    intro m hm
    obtain ⟨k, hk, hspans⟩ := ih m hm
    exact ⟨k, List.mem_cons_of_mem _ hk, hspans⟩

/-- What a scan comes to, for every pool, every body and all templates.  It has all matches of
the walk, unless a template that is tried looks for a member where the pool has an entry of
another kind: then it has those before, and no answer.

A step has an answer for every other instruction; an operand of which nothing can be read
makes it fail.  The lookup of a reference is what has no answer for an entry of another kind;
where there is no entry, it fails as it should. -/
theorem scan_answers (pool : Pool) (body? : Option MethodBody) (templates : List Template)
    (instructions : List Instruction) :
    ((∃ visited matches_, scan pool (barriersIn body? instructions) templates instructions =
          matches_.map .ok ∧ Walk pool body? templates instructions 0 visited matches_ ∧
          ∀ matches', ¬ Halted pool body? templates instructions 0 matches') ∨
        ∃ matches_, scan pool (barriersIn body? instructions) templates instructions =
          matches_.map .ok ++ [.error .collapsed] ∧
          Halted pool body? templates instructions 0 matches_) ∧
      (∀ (s : Step) (ins : Instruction) (bound : Bindings),
        (s.Stumbles pool ins → s.check pool ins bound = .error .collapsed) ∧
        (¬ s.Stumbles pool ins → ∃ answer, s.check pool ins bound = .ok answer) ∧
        (¬ s.Stumbles pool ins → s.Misses pool ins → s.check pool ins bound = .ok none)) ∧
      ∀ index,
        (pool.get? index = none → pool.ref index = .error (.badIndex (.absent index pool.count))) ∧
        (pool.ref index = .error .collapsed ↔ ∃ c, pool.get? index = some c ∧
          ∀ kind owner nameAndType, c ≠ .member kind owner nameAndType) := by
  refine ⟨scanFrom_cases pool body? templates instructions 0 instructions.length (by omega),
    fun s ins bound => ⟨fun hs => Step.check_error_iff.2 ⟨rfl, hs⟩, fun hs => ?_, fun hs hmisses =>
      hmisses.check_eq hs⟩, fun index => ⟨fun hget => ?_, ref_collapsed_iff⟩⟩
  · rcases hcheck : s.check pool ins bound with e | answer
    · exact absurd (Step.check_error_iff.1 hcheck).2 hs
    · exact ⟨answer, rfl⟩
  · unfold Pool.ref Pool.get
    rw [hget]
    rfl

/-- Where members are named, no template stumbles, and the scan is a walk. -/
theorem exists_walk (body? : Option MethodBody) (templates : List Template)
    (h : NamesMembers pool instructions) :
    ∃ visited matches_, scan pool (barriersIn body? instructions) templates instructions =
      matches_.map .ok ∧ Walk pool body? templates instructions 0 visited matches_ := by
  rcases scanFrom_cases pool body? templates instructions 0 instructions.length (by omega) with
    ⟨visited, matches_, hscan, hwalk, -⟩ | ⟨matches_, -, hhalted⟩
  · exact ⟨visited, matches_, hscan, hwalk⟩
  · exact absurd hhalted (not_halted_of_namesMembers h)

/-- A scan finds the matches of the walk from the first position on, and there is one such
walk: it visits positions from left to right, none of them twice, and every match spans the
instructions at its steps. -/
theorem scan_walks (body? : Option MethodBody) (templates : List Template)
    (h : NamesMembers pool instructions) :
    ∃ visited matches_, scan pool (barriersIn body? instructions) templates instructions =
        matches_.map .ok ∧
      Walk pool body? templates instructions 0 visited matches_ ∧
      (∀ visited' matches', Walk pool body? templates instructions 0 visited' matches' →
        visited' = visited ∧ matches' = matches_) ∧
      visited.Pairwise (· < ·) ∧ (∀ k ∈ visited, k < instructions.length) ∧
      ∀ m ∈ matches_, ∃ k ∈ visited, m.Spans pool instructions k := by
  obtain ⟨visited, matches_, hscan, hwalk⟩ := exists_walk body? templates h
  obtain ⟨hpairwise, hrange⟩ := hwalk.visits
  exact ⟨visited, matches_, hscan, hwalk, fun _ _ hwalk' => hwalk'.unique hwalk, hpairwise,
    fun k hk => (hrange k hk).2, hwalk.spans⟩

/-- Loads one variable twice. -/
def twice : Template :=
  { name := "twice"
    steps := [{ family := .load .aload, demand := .bind "x" false },
      { family := .load .aload, demand := .bind "x" false }] }

/-- Calls a method. -/
def calls : Template :=
  { name := "calls"
    steps := [{
      family := .exactly .invokestatic
      demand := .ref (.bind "class" false) (.bind "method" false) .any }] }

/-- The pool of `twiceCode`. -/
def twicePool : Pool :=
  .ofSlots [none, some (.utf8 [65]), some (.class_ 1), some (.utf8 [100]), some (.utf8 [40, 41, 86]),
    some (.nameAndType 3 4), some (.member .method 2 5)]

/-- Loads one variable twice, calls a method, and loads two variables. -/
def twiceCode : List Instruction :=
  [{ op := .aload, operand := (.slot 4 : Operand .slot) },
    { op := .aload, operand := (.slot 4 : Operand .slot), offset := 2 },
    { op := .invokestatic, operand := (.pool16 6 : Operand .pool16), offset := 4 },
    { op := .aload, operand := (.slot 4 : Operand .slot), offset := 7 },
    { op := .aload, operand := (.slot 5 : Operand .slot), offset := 9 }]

theorem namesMembers_twiceCode : NamesMembers twicePool twiceCode := by
  intro ins hins hop c hc
  simp only [twiceCode, List.mem_cons, List.not_mem_nil, or_false] at hins
  rcases hins with rfl | rfl | rfl | rfl | rfl
  · cases hop
  · cases hop
  · obtain rfl := Option.some.inj ((show twicePool.get? 6 = some (.member .method 2 5) from rfl).symm.trans hc)
    exact ⟨_, _, _, rfl⟩
  · cases hop
  · cases hop

/-- The scan for a variable that is loaded twice and for calls finds one of each. -/
theorem scan_walks_twice : ∃ visited matches_,
    scan twicePool (barriersIn none twiceCode) [twice, calls] twiceCode = matches_.map .ok ∧
      Walk twicePool none [twice, calls] twiceCode 0 visited matches_ ∧
      (∀ visited' matches', Walk twicePool none [twice, calls] twiceCode 0 visited' matches' →
        visited' = visited ∧ matches' = matches_) ∧
      visited.Pairwise (· < ·) ∧ (∀ k ∈ visited, k < twiceCode.length) ∧
      (∀ m ∈ matches_, ∃ k ∈ visited, m.Spans twicePool twiceCode k) ∧
      matches_.map (fun m => (m.start, m.stop)) = [(0, 4), (4, 7)] := by
  obtain ⟨visited, matches_, hscan, hwalk, hunique, hpairwise, hrange, hspans⟩ :=
    scan_walks none [twice, calls] namesMembers_twiceCode
  refine ⟨visited, matches_, hscan, hwalk, hunique, hpairwise, hrange, hspans, ?_⟩
  have hfound : (scan twicePool (barriersIn none twiceCode) [twice, calls] twiceCode).map
      (fun answer => answer.toOption.map fun m => (m.start, m.stop)) =
      [some (0, 4), some (4, 7)] := by
    rfl
  rw [hscan, List.map_map] at hfound
  exact List.map_injective_iff.2 (Option.some_injective _) (by simpa [Function.comp_def, Except.toOption] using hfound)

end Cleartext.Pattern
