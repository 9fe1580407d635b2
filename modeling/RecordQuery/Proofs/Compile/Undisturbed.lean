import RecordQuery.Proofs.Compile.Splice

/-!
# Operations that leave steps below alone

Two drafts are beside each other if the steps of one are those of the other with some spliced in,
and their slots differ in where the steps of the later ones start (`Draft.Spliced`).  Operations
keep them beside each other as long as none of them gives up or computes ahead the slot whose steps
the spliced ones have joined (`Draft.Spliced.addAll`).  Whether they do is told by the draft without
the spliced steps (`Draft.keepsOlderAll`): one only has to watch the topmost of the slots that were
there at the time.
-/

namespace RecordQuery.Compile

variable {place : Nat} {extra : List Op}

/-! ## Drafts beside each other -/

variable [Regexp.Matcher]

/-- A draft beside another one with steps spliced in and slots below: the slots that were there at
that time are the same, and the steps of those pushed since start behind the spliced ones. -/
structure Draft.Spliced (place : Nat) (extra : List Op) (base older : List Slot)
    (draft spliced : Draft) : Prop where
  /-- The steps differ in the spliced ones. -/
  ops : draft.OpsSpliced place extra spliced
  /-- The slots pushed since are raised. -/
  slots : ∃ newer, draft.slots = newer ++ older ∧
    spliced.slots = newer.map (.raise extra.length) ++ (older ++ base) ∧
    ∀ slot ∈ newer, place ≤ slot.start
  /-- The other slots are below the spliced steps. -/
  below : ∀ slot ∈ older, slot.Below place extra

section Operands

variable {belows behinds : List Slot} {slot : Slot}

theorem movedAll_append (hbelow : ∀ slot ∈ belows, slot.Below place extra)
    (hbehind : ∀ slot ∈ behinds, place ≤ slot.start) :
    Slot.MovedAll place extra (belows ++ behinds)
      (belows ++ behinds.map (.raise extra.length)) := by
  induction belows with
  | nil =>
      induction behinds with
      | nil => exact .nil
      | cons slot later ih =>
          refine .cons ⟨true, .behind (hbehind slot (List.mem_cons_self ..))⟩ ?_
          exact ih fun other hmem => hbehind other (List.mem_cons_of_mem _ hmem)
  | cons slot later ih =>
      refine .cons ⟨false, .below (hbelow slot (List.mem_cons_self ..))⟩ ?_
      exact ih fun other hmem => hbelow other (List.mem_cons_of_mem _ hmem)

/-- The first operand is on the side of the result. -/
theorem moved_head {first : Slot} {later : List Slot}
    (hbelow : ∀ slot ∈ belows, slot.Below place extra)
    (hbehind : ∀ slot ∈ behinds, place ≤ slot.start) (hslots : belows ++ behinds = first :: later) :
    ∃ side first' later', belows ++ behinds.map (.raise extra.length) = first' :: later' ∧
      first.Moved place extra side first' ∧ Slot.MovedAll place extra later later' ∧
      (side = false ↔ belows ≠ []) := by
  cases belows with
  | nil =>
      rw [List.nil_append] at hslots
      subst hslots
      have hlater : Slot.MovedAll place extra ([] ++ later)
          ([] ++ later.map (.raise extra.length)) :=
        movedAll_append (by simp) fun slot hmem => hbehind slot (List.mem_cons_of_mem _ hmem)
      exact ⟨true, _, _, rfl, .behind (hbehind first (List.mem_cons_self ..)), hlater, by simp⟩
  | cons slot belows =>
      obtain ⟨rfl, rfl⟩ := List.cons.inj hslots
      have hlater := movedAll_append
        (fun slot hmem => hbelow slot (List.mem_cons_of_mem _ hmem)) hbehind
      exact ⟨false, _, _, rfl, .below (hbelow slot (List.mem_cons_self ..)), hlater, by simp⟩

theorem moved_single (hbelow : ∀ slot ∈ belows, slot.Below place extra)
    (hbehind : ∀ slot ∈ behinds, place ≤ slot.start) (hslots : belows ++ behinds = [slot]) :
    ∃ side moved, belows ++ behinds.map (.raise extra.length) = [moved] ∧
      slot.Moved place extra side moved ∧ (side = false ↔ belows ≠ []) ∧
      (side = false → behinds = []) := by
  obtain ⟨side, moved, later, hmoved, hslot, hlater, hside⟩ := moved_head hbelow hbehind hslots
  cases hlater
  refine ⟨side, moved, hmoved, hslot, hside, fun hfalse => ?_⟩
  obtain ⟨other, belows, rfl⟩ := List.exists_cons_of_ne_nil (hside.mp hfalse)
  exact (List.append_eq_nil_iff.mp (List.cons.inj hslots).2).2

theorem moved_pair {left right : Slot} (hbelow : ∀ slot ∈ belows, slot.Below place extra)
    (hbehind : ∀ slot ∈ behinds, place ≤ slot.start) (hslots : belows ++ behinds = [left, right]) :
    ∃ side topSide left' right', belows ++ behinds.map (.raise extra.length) = [left', right'] ∧
      left.Moved place extra side left' ∧ right.Moved place extra topSide right' ∧
      (side = false ↔ belows ≠ []) ∧ (topSide = false → belows ≠ [] ∧ behinds = []) := by
  cases belows with
  | nil =>
      rw [List.nil_append] at hslots
      subst hslots
      exact ⟨true, true, _, _, rfl, .behind (hbehind left (by simp)),
        .behind (hbehind right (by simp)), by simp, by simp⟩
  | cons first belows =>
      obtain ⟨rfl, hlater⟩ := List.cons.inj hslots
      obtain ⟨topSide, right', hright', hright, _, htop⟩ :=
        moved_single (fun slot hmem => hbelow slot (List.mem_cons_of_mem _ hmem)) hbehind hlater
      exact ⟨false, topSide, first, right', by rw [List.cons_append, hright'],
        .below (hbelow first (List.mem_cons_self ..)), hright, by simp,
        fun hfalse => ⟨by simp, htop hfalse⟩⟩

end Operands

namespace Draft.Spliced

variable {base older : List Slot} {draft spliced draft' spliced' : Draft} {scope : Scope}
  {index : Nat} {operator : Operator} {side : Bool}

/-- One more slot belongs to its side, where some slots may have been taken off before. -/
theorem pushed (h : Spliced place extra base older draft spliced)
    (hpushed : PushedAlike place extra side draft.slots spliced.slots draft' spliced')
    (taken : Nat) (hside : side = false ↔ taken ≠ 0)
    (hnewer : taken ≠ 0 → draft.slots.length = older.length) :
    ∃ older', Spliced place extra base older' draft' spliced' ∧
      older'.length = min (older.length + taken) draft'.slots.length := by
  obtain ⟨_, ⟨newer, hdraft, hspliced, hplaced⟩, hbelow⟩ := h
  obtain ⟨hops, slot, moved, hslot, hdraft', hspliced'⟩ := hpushed
  rw [hdraft', List.length_cons]
  cases hslot with
  | behind hplace =>
      refine ⟨older, ⟨hops, ⟨slot :: newer, ?_, ?_, ?_⟩, hbelow⟩, ?_⟩
      · rw [hdraft', hdraft, List.cons_append]
      · rw [hspliced', hspliced, List.map_cons, List.cons_append]
      · exact List.forall_mem_cons.mpr ⟨hplace, hplaced⟩
      · have hnone : taken = 0 := by
          by_contra htaken
          cases hside.mpr htaken
        rw [hdraft, List.length_append]
        omega
  | below hslot =>
      have htaken := hside.mp rfl
      have hlength := hnewer htaken
      -- Nothing newer is left, or the operands would not have reached an older slot.
      have hnone : newer = [] := by
        rw [hdraft, List.length_append] at hlength
        exact List.eq_nil_of_length_eq_zero (by omega)
      subst hnone
      refine ⟨slot :: older, ⟨hops, ⟨[], ?_, ?_, by simp⟩, ?_⟩, ?_⟩
      · rw [hdraft', hdraft]
        rfl
      · rw [hspliced', hspliced]
        rfl
      · exact List.forall_mem_cons.mpr ⟨hslot, hbelow⟩
      · rw [hlength, List.length_cons]
        omega

/-- `POP` is the same beside spliced steps if it does not take them off with a constant. -/
theorem discard {slot moved : Slot} (h : Spliced place extra base older draft spliced)
    (hslot : slot.Moved place extra side moved)
    (hcut : side = false → slot.isConstant = false) :
    Spliced place extra base older (draft.discard slot) (spliced.discard moved) := by
  refine ⟨h.ops.discard hslot hcut, ?_, h.below⟩
  rw [slots_discard, slots_discard]
  exact h.slots

/-- A call takes its function from below its arguments. -/
theorem call {arguments arguments' : List Slot} {target : Slot} {slots : List Slot}
    (h : Spliced place extra base older draft spliced)
    (harguments : Slot.MovedAll place extra arguments arguments') {taken : Nat}
    (hnewer : taken ≠ 0 → draft.slots.length = older.length)
    (hslots : draft.slots = target :: slots)
    (hcall : { draft with slots := slots }.call scope index target arguments = .ok draft')
    (hkept : draft.slots.length = older.length → draft'.topIsConstant = false) (other : Nat) :
    ∃ target' slots' spliced' older', spliced.slots = target' :: slots' ∧
      { spliced with slots := slots' }.call scope other target' arguments' = .ok spliced' ∧
      Spliced place extra base older' draft' spliced' ∧
      older'.length = min (older.length + taken) draft'.slots.length := by
  obtain ⟨hops, ⟨newer, hdraft, hspliced, hplaced⟩, hbelow⟩ := h
  cases newer with
  -- The function is newer than what is spliced in, and with it all its arguments.
  | cons slot newer =>
      obtain ⟨rfl, rfl⟩ := List.cons.inj (hslots.symm.trans hdraft)
      have hnone : taken = 0 := by
        by_contra htaken
        have hlength := hnewer htaken
        rw [hdraft, List.length_append, List.length_cons] at hlength
        omega
      have htarget : target.Moved place extra true (target.raise extra.length) :=
        .behind (hplaced target (List.mem_cons_self ..))
      have hkept' : true = false → draft'.topIsConstant = false := nofun
      have hlower : Spliced place extra base older { draft with slots := newer ++ older }
          { spliced with slots := newer.map (.raise extra.length) ++ (older ++ base) } :=
        ⟨hops, ⟨newer, rfl, rfl, fun slot hmem => hplaced slot (List.mem_cons_of_mem _ hmem)⟩,
          hbelow⟩
      obtain ⟨spliced', hcall', hpushed⟩ :=
        hlower.ops.call htarget harguments hcall hkept' other
      obtain ⟨older', hspliced', holder⟩ :=
        hlower.pushed hpushed 0 (by simp) (fun htaken => absurd rfl htaken)
      exact ⟨_, _, spliced', older', hspliced, hcall', hspliced', by rw [hnone, holder]⟩
  -- The function is older: what it answers is older as well and must not be folded.
  | nil =>
      rw [List.nil_append] at hdraft
      obtain rfl := hdraft.symm.trans hslots
      have htarget : target.Moved place extra false target :=
        .below (hbelow target (List.mem_cons_self ..))
      have hkept' : false = false → draft'.topIsConstant = false :=
        fun _ => hkept (by rw [hslots])
      have hlower : Spliced place extra base slots { draft with slots := slots }
          { spliced with slots := slots ++ base } :=
        ⟨hops, ⟨[], rfl, rfl, by simp⟩,
          fun slot hmem => hbelow slot (List.mem_cons_of_mem _ hmem)⟩
      obtain ⟨spliced', hcall', hpushed⟩ :=
        hlower.ops.call htarget harguments hcall hkept' other
      obtain ⟨older', hspliced', holder⟩ :=
        hlower.pushed hpushed (taken + 1) (by simp) (fun _ => rfl)
      refine ⟨_, _, spliced', older', hspliced, hcall', hspliced', ?_⟩
      rw [holder, List.length_cons]
      omega

/-- An operator does the same beside spliced steps if it neither takes them off with its topmost
operand nor computes a result ahead of which they are part. -/
theorem applyTo {belows behinds : List Slot} (h : Spliced place extra base older draft spliced)
    (hbelow : ∀ slot ∈ belows, slot.Below place extra)
    (hbehind : ∀ slot ∈ behinds, place ≤ slot.start)
    (hnewer : belows ≠ [] → draft.slots.length = older.length)
    (hpositive : operator.connective? ≠ none → belows ++ behinds ≠ [])
    (hcall : operator = .call → draft.slots ≠ [])
    (happly : draft.applyTo scope index operator (belows ++ behinds) = .ok draft')
    (hcut : belows ≠ [] → behinds = [] →
      draft'.givesUpTop (belows ++ behinds).getLast? operator = false)
    (hkept : operator ≠ .pop →
      (belows ≠ [] ∨ operator = .call ∧ draft.slots.length = older.length) →
      draft'.topIsConstant = false) (other : Nat) :
    ∃ spliced' older',
      spliced.applyTo scope other operator (belows ++ behinds.map (.raise extra.length)) =
        .ok spliced' ∧
      Spliced place extra base older' draft' spliced' ∧
      older'.length = min (older.length + belows.length) draft'.slots.length := by
  have htaken : belows.length ≠ 0 ↔ belows ≠ [] := by simp
  -- The result of an operator is on the side of its first operand.
  have hpushed {side : Bool} {onTop : Except Error Draft} (hside : side = false ↔ belows ≠ [])
      (hresult : ∃ spliced', onTop = .ok spliced' ∧
        PushedAlike place extra side draft.slots spliced.slots draft' spliced') :
      ∃ spliced' older', onTop = .ok spliced' ∧ Spliced place extra base older' draft' spliced' ∧
        older'.length = min (older.length + belows.length) draft'.slots.length := by
    obtain ⟨spliced', honTop, hpushed⟩ := hresult
    obtain ⟨older', hspliced, hlength⟩ :=
      h.pushed hpushed belows.length (hside.trans htaken.symm) fun hsome => hnewer (htaken.mp hsome)
    exact ⟨spliced', older', honTop, hspliced, hlength⟩
  have hopen {side : Bool} (hside : side = false ↔ belows ≠ []) (hpop : operator ≠ .pop) :
      side = false → draft'.topIsConstant = false :=
    fun hfalse => hkept hpop (.inl (hside.mp hfalse))
  generalize hoperands : belows ++ behinds = operands at happly hcut hpositive
  unfold Draft.applyTo at happly
  split at happly
  · rename_i slot
    obtain ⟨side, moved, hmoved, hslot, hside, htop⟩ := moved_single hbelow hbehind hoperands
    cases happly
    rw [hmoved]
    have hdiscard := h.discard hslot fun hfalse => hcut (hside.mp hfalse) (htop hfalse)
    refine ⟨_, older, rfl, hdiscard, ?_⟩
    rw [slots_discard]
    obtain ⟨_, ⟨newer, hdraft, _, _⟩, _⟩ := h
    by_cases hnone : belows = []
    · rw [hdraft, hnone, List.length_append, List.length_nil]
      omega
    · rw [hnewer hnone]
      omega
  · rename_i record name
    obtain ⟨side, topSide, record', name', hmoved, hrecord, hname, hside, htop⟩ :=
      moved_pair hbelow hbehind hoperands
    rw [hmoved]
    exact hpushed hside (h.ops.readColumn hrecord hname happly
      (fun hfalse => hcut (htop hfalse).1 (htop hfalse).2) other)
  · rename_i operand
    obtain ⟨side, operand', hmoved, hoperand, hside, _⟩ := moved_single hbelow hbehind hoperands
    rw [hmoved]
    exact hpushed hside (h.ops.invert hoperand happly (hopen hside (by decide)) other)
  · rename_i operand
    obtain ⟨side, operand', hmoved, hoperand, hside, _⟩ := moved_single hbelow hbehind hoperands
    rw [hmoved]
    exact hpushed hside (h.ops.negate hoperand happly (hopen hside (by decide)) other)
  · -- The function of a call is the slot below its arguments.
    obtain ⟨target, slots, hslots⟩ := List.exists_cons_of_ne_nil (hcall rfl)
    subst hoperands
    rw [hslots] at happly
    obtain ⟨target', slots', spliced', older', hslots', hcalled, hspliced, hlength⟩ :=
      h.call (movedAll_append hbelow hbehind) (fun hsome => hnewer (htaken.mp hsome)) hslots
        happly (fun hnone => hkept (by decide) (.inr ⟨rfl, hnone⟩)) other
    refine ⟨spliced', older', ?_, hspliced, hlength⟩
    simp only [Draft.applyTo, hslots']
    exact hcalled
  · split at happly
    · rename_i slots _ _ _ connective hconnective _ _ _ _
      have hpop : operator ≠ .pop := by
        rintro rfl
        cases hconnective
      obtain ⟨first, later, rfl⟩ : ∃ first later, slots = first :: later :=
        List.exists_cons_of_ne_nil (hpositive (by simp [hconnective]))
      obtain ⟨side, first', later', hmoved, hfirst, hlater, hside⟩ :=
        moved_head hbelow hbehind hoperands
      rw [hmoved, applyTo_of_connective hconnective]
      exact hpushed hside (h.ops.connect hfirst hlater happly (hopen hside hpop) other)
    · rename_i operation left right _ hoperation _ _ _ _ _
      have hpop : operator ≠ .pop := by
        rintro rfl
        cases hoperation
      obtain ⟨side, topSide, left', right', hmoved, hleft, hright, hside, htop⟩ :=
        moved_pair hbelow hbehind hoperands
      rw [hmoved, applyTo_of_binary hoperation]
      exact hpushed hside (h.ops.combine hoperation hleft hright happly
        (fun hfalse => hcut (htop hfalse).1 (htop hfalse).2) (hopen hside hpop) other)
    · cases happly

/-! ### Operations -/

/-- The operands of an operator are the same beside spliced steps, those pushed since raised. -/
theorem takeTop (h : Spliced place extra base older draft spliced) {count : Nat}
    (hcount : count ≤ draft.slots.length) :
    ∃ belows behinds rest rest' older', Compile.takeTop draft.slots count [] =
        some (belows ++ behinds, rest) ∧
      Compile.takeTop spliced.slots count [] =
        some (belows ++ behinds.map (.raise extra.length), rest') ∧
      Spliced place extra base older' { draft with slots := rest }
        { spliced with slots := rest' } ∧
      (∀ slot ∈ belows, slot.Below place extra) ∧ (∀ slot ∈ behinds, place ≤ slot.start) ∧
      older.length = older'.length + belows.length ∧
      (belows ≠ [] → rest.length = older'.length) ∧
      (behinds = [] → count ≠ 0 → draft.slots.length = older.length) := by
  obtain ⟨hops, ⟨newer, hdraft, hspliced, hplaced⟩, hbelow⟩ := h
  rw [hdraft, List.length_append] at hcount
  -- The newer slots go first; the count goes on into the older ones, never into the base.
  have hmore : count - newer.length ≤ older.length := by omega
  refine ⟨(older.take (count - newer.length)).reverse, (newer.take count).reverse,
    newer.drop count ++ older.drop (count - newer.length),
    (newer.drop count).map (.raise extra.length) ++
      (older.drop (count - newer.length) ++ base),
    older.drop (count - newer.length), ?_, ?_,
    ⟨hops, ⟨newer.drop count, rfl, rfl, fun slot hmem => hplaced slot (List.mem_of_mem_drop hmem)⟩,
      fun slot hmem => hbelow slot (List.mem_of_mem_drop hmem)⟩, ?_, ?_, ?_, ?_, ?_⟩
  · rw [takeTop_of_le (by rw [hdraft, List.length_append]; omega), hdraft, List.take_append,
      List.drop_append, List.reverse_append]
  · rw [takeTop_of_le (by simp [hspliced]; omega), hspliced, List.take_append,
      List.drop_append, List.length_map, List.take_append_of_le_length hmore,
      List.drop_append_of_le_length hmore, List.reverse_append, List.map_reverse, List.map_take,
      List.map_drop]
  · exact fun slot hmem => hbelow slot (List.mem_of_mem_take (List.mem_reverse.mp hmem))
  · exact fun slot hmem => hplaced slot (List.mem_of_mem_take (List.mem_reverse.mp hmem))
  · simp only [List.length_drop, List.length_reverse, List.length_take]
    omega
  · intro hsome
    have hfew : newer.length ≤ count := by
      by_contra hfew
      refine hsome ?_
      rw [Nat.sub_eq_zero_of_le (by omega), List.take_zero, List.reverse_nil]
    rw [List.drop_of_length_le hfew, List.nil_append]
  · intro hnone hpositive
    have hnewer : newer = [] := by
      simpa [hpositive] using hnone
    rw [hdraft, hnewer, List.nil_append]

/-- An operator takes its operands off the slots that are beside each other. -/
theorem apply {arity : Int} (h : Spliced place extra base older draft spliced)
    (harity : operator.acceptsArity arity = true)
    (happly : draft.apply scope index operator arity.toNat = .ok draft')
    (hcut : older ≠ [] → draft.slots.length = older.length →
      draft'.givesUpTop draft.slots.head? operator = false)
    (hkept : older ≠ [] → operator ≠ .pop →
      draft.slots.length < older.length + neededSlots operator arity.toNat →
      draft'.topIsConstant = false) (other : Nat) :
    ∃ spliced' older', spliced.apply scope other operator arity.toNat = .ok spliced' ∧
      Spliced place extra base older' draft' spliced' ∧
      older'.length = min older.length draft'.slots.length := by
  simp only [Draft.apply] at happly ⊢
  split at happly
  · cases happly
  rename_i henough
  have hneeded : neededSlots operator arity.toNat ≤ draft.slots.length := by
    rw [List.length_take] at henough
    omega
  have hcount : arity.toNat ≤ neededSlots operator arity.toNat := by
    unfold neededSlots
    split <;> omega
  obtain ⟨belows, behinds, rest, rest', older', htake, htake', hlower, hbelow, hbehind, hlength,
    hnewer, hnone⟩ := h.takeTop (Nat.le_trans hcount hneeded)
  -- There are at least as many slots, so that the operation finds its operands here too.
  have hmore : draft.slots.length ≤ spliced.slots.length := by
    obtain ⟨_, ⟨newer, hdraft, hspliced, _⟩, _⟩ := h
    simp only [hdraft, hspliced, List.length_append, List.length_map]
    omega
  have henough' : ¬ (spliced.slots.take (neededSlots operator arity.toNat)).length <
      neededSlots operator arity.toNat := by
    rw [List.length_take]
    omega
  obtain ⟨hoperands, hrest⟩ := takeTop_eq_some htake
  rw [List.append_nil] at hoperands
  have hrestLength : rest.length = draft.slots.length - arity.toNat := by
    rw [hrest, List.length_drop]
  have hoperandsLength : belows.length + behinds.length = arity.toNat := by
    rw [← List.length_append, length_takeTop htake, List.length_nil, Nat.add_zero]
  simp only [htake] at happly
  simp only [if_neg henough', htake']
  have hpositive : belows ≠ [] → arity.toNat ≠ 0 := by
    intro hsome
    have hbelows := List.length_pos_of_ne_nil hsome
    omega
  have hconnective : operator.connective? ≠ none → belows ++ behinds ≠ [] := by
    intro hconnective hnil
    have hleast := one_le_of_connective hconnective harity
    have hzero := congrArg List.length hnil
    rw [List.length_append, List.length_nil] at hzero
    omega
  have hcall : operator = .call → rest ≠ [] := by
    intro hcall hnil
    have hone : neededSlots operator arity.toNat = arity.toNat + 1 := if_pos hcall
    have hempty : rest.length = 0 := congrArg List.length hnil
    omega
  -- What the last two conditions ask of the operands, in terms of the slots they were.
  have hgiven : belows ≠ [] → behinds = [] →
      draft'.givesUpTop (belows ++ behinds).getLast? operator = false := by
    intro hsome hbehinds
    have hlast : (belows ++ behinds).getLast? = draft.slots.head? := by
      rw [hoperands, List.getLast?_reverse, List.head?_take, if_neg (hpositive hsome)]
    rw [hlast]
    have hbelows := List.length_pos_of_ne_nil hsome
    have hold : older ≠ [] := List.ne_nil_of_length_pos (by omega)
    exact hcut hold (hnone hbehinds (hpositive hsome))
  have hopen : operator ≠ .pop →
      (belows ≠ [] ∨ operator = .call ∧ rest.length = older'.length) →
      draft'.topIsConstant = false := by
    intro hpop hreaches
    rcases hreaches with hsome | ⟨hcalled, hall⟩
    · have hbelows := List.length_pos_of_ne_nil hsome
      have hrests := hnewer hsome
      exact hkept (List.ne_nil_of_length_pos (by omega)) hpop (by omega)
    · have hone : neededSlots operator arity.toNat = arity.toNat + 1 := if_pos hcalled
      have hrests := List.length_pos_of_ne_nil (hcall hcalled)
      exact hkept (List.ne_nil_of_length_pos (by omega)) hpop (by omega)
  rw [hlength]
  exact hlower.applyTo hbelow hbehind hnewer hconnective hcall happly hgiven hopen other

end Draft.Spliced

/-- Whether an operation between two drafts leaves the steps alone that end the topmost of a number
of slots, if there are any: it does not give them up with its topmost operand, and they are not part
of a result that is computed ahead. -/
def Draft.keepsOlder (count : Nat) (draft draft' : Draft) (operation : Operation) : Bool :=
  let height := draft.slots.length + if operation.operand.isSome then 1 else 0
  let reached := height < count + neededSlots operation.operator operation.arity.toNat
  count = 0 ||
    !(height = count && draft'.givesUpTop draft.slots.head? operation.operator) &&
      !(reached && operation.operator ≠ .pop && draft'.topIsConstant)

omit [Regexp.Matcher] in
theorem Draft.keepsOlder_iff {count : Nat} {draft draft' : Draft} {operation : Operation} :
    draft.keepsOlder count draft' operation = true ↔ count ≠ 0 →
      (draft.slots.length + (if operation.operand.isSome then 1 else 0) = count →
        draft'.givesUpTop draft.slots.head? operation.operator = false) ∧
      (operation.operator ≠ .pop →
        draft.slots.length + (if operation.operand.isSome then 1 else 0) <
          count + neededSlots operation.operator operation.arity.toNat →
        draft'.topIsConstant = false) := by
  simp only [keepsOlder, Bool.or_eq_true, Bool.and_eq_true, Bool.not_eq_true',
    Bool.and_eq_false_imp, decide_eq_true_eq, and_imp]
  rw [or_iff_not_imp_left]
  exact imp_congr_right fun _ => and_congr_right fun _ => forall_comm

/-- Whether operations leave the steps alone that end the topmost of a number of slots, as long as
there are that many, and then those of the slots that are left. -/
def Draft.keepsOlderAll (scope : Scope) (count : Nat) (draft : Draft) (index : Nat) :
    List Operation → Bool
  | [] => true
  | operation :: later =>
    match draft.add scope index operation with
    | .error _ => true
    | .ok draft' =>
      draft.keepsOlder count draft' operation &&
        draft'.keepsOlderAll scope (min count draft'.slots.length) (index + 1) later

theorem Draft.keepsOlderAll_zero (scope : Scope) (draft : Draft) (index : Nat)
    (operations : List Operation) : draft.keepsOlderAll scope 0 index operations = true := by
  induction operations generalizing draft index with
  | nil => rfl
  | cons operation later ih =>
      simp only [keepsOlderAll]
      split
      · rfl
      · rename_i draft' _
        rw [Nat.zero_min, ih draft' (index + 1), Bool.and_true]
        rfl

namespace Draft.Spliced

variable {base older : List Slot} {draft spliced draft' : Draft} {scope : Scope} {index : Nat}

theorem length_le (h : Spliced place extra base older draft spliced) :
    older.length ≤ draft.slots.length := by
  obtain ⟨_, ⟨newer, hdraft, _, _⟩, _⟩ := h
  rw [hdraft, List.length_append]
  omega

theorem slots_single (h : Spliced place extra [] older draft spliced) {slot : Slot}
    (hslot : draft.slots = [slot]) :
    ∃ side moved, slot.Moved place extra side moved ∧ spliced.slots = [moved] := by
  obtain ⟨_, ⟨newer, hdraft, hspliced, hplaced⟩, hbelow⟩ := h
  obtain ⟨rfl, rfl⟩ | ⟨rfl, rfl⟩ := List.append_eq_singleton_iff.mp (hdraft.symm.trans hslot)
  · exact ⟨false, slot, .below (hbelow slot (List.mem_singleton_self slot)), hspliced⟩
  · exact ⟨true, _, .behind (hplaced slot (List.mem_singleton_self slot)), hspliced⟩

theorem add {operation : Operation} (h : Spliced place extra base older draft spliced)
    (hadd : draft.add scope index operation = .ok draft')
    (hkeeps : draft.keepsOlder older.length draft' operation = true) (other : Nat) :
    ∃ spliced' older', spliced.add scope other operation = .ok spliced' ∧
      Spliced place extra base older' draft' spliced' ∧
      older'.length = min older.length draft'.slots.length := by
  obtain ⟨operator, arity, operand⟩ := operation
  cases operand with
  | none =>
      have hkeeps (hold : older ≠ []) :=
        keepsOlder_iff.mp hkeeps (mt List.eq_nil_of_length_eq_zero hold)
      simp only [Draft.add] at hadd ⊢
      split at hadd
      · cases hadd
      rename_i hpush
      split at hadd
      · rename_i harity
        rw [if_neg hpush, if_pos harity]
        exact h.apply harity hadd (fun hold => (hkeeps hold).1) (fun hold => (hkeeps hold).2) other
      · cases hadd
  | some operand =>
      have hfull := h.length_le
      have hkeeps (hold : older ≠ []) :=
        keepsOlder_iff.mp hkeeps (mt List.eq_nil_of_length_eq_zero hold)
      simp only [Draft.add] at hadd ⊢
      split at hadd
      · cases hadd
      rename_i between hoperand
      -- An operand is a newer slot, and the operation goes on from there.
      obtain ⟨between', hoperand', hpushed⟩ := h.ops.pushOperand hoperand other
      obtain ⟨slot, hslots⟩ := slots_pushOperand hoperand
      obtain ⟨older', hbetween, hlength⟩ :=
        h.pushed hpushed 0 (by simp) (fun hzero => absurd rfl hzero)
      rw [hslots, List.length_cons, Nat.add_zero, Nat.min_eq_left (by omega)] at hlength
      simp only [hoperand']
      split at hadd
      · rename_i hpush
        rw [if_pos hpush]
        split at hadd
        · rename_i hone
          cases hadd
          refine ⟨between', older', if_pos hone, hbetween, ?_⟩
          rw [hlength, hslots, List.length_cons, Nat.min_eq_left (by omega)]
        · cases hadd
      · rename_i hpush
        rw [if_neg hpush]
        split at hadd
        · rename_i harity
          rw [if_pos harity, ← hlength]
          have hmore : between.slots.length = draft.slots.length + 1 := by
            rw [hslots, List.length_cons]
          have hsame : older' ≠ [] → older ≠ [] := by
            intro hold
            have hpositive := List.length_pos_of_ne_nil hold
            exact List.ne_nil_of_length_pos (by omega)
          refine hbetween.apply harity hadd (fun _ hall => ?_) (fun hold hpop hreached => ?_) other
          · omega
          · rw [hmore, hlength] at hreached
            exact (hkeeps (hsame hold)).2 hpop hreached
        · cases hadd

/-- Operations compile beside spliced steps, which stay among the steps of the slots that were there
at that time. -/
theorem addAll {operations : List Operation} (h : Spliced place extra base older draft spliced)
    (hadd : draft.addAll scope index operations = .ok draft')
    (hkeeps : draft.keepsOlderAll scope older.length index operations = true) (other : Nat) :
    ∃ spliced' older', spliced.addAll scope other operations = .ok spliced' ∧
      Spliced place extra base older' draft' spliced' ∧ older'.length ≤ older.length := by
  induction operations generalizing draft spliced older index other with
  | nil =>
      cases hadd
      exact ⟨spliced, older, rfl, h, Nat.le_refl _⟩
  | cons operation later ih =>
      simp only [Draft.addAll] at hadd ⊢
      simp only [keepsOlderAll] at hkeeps
      split at hadd
      · cases hadd
      rename_i between hbetween
      rw [hbetween, Bool.and_eq_true] at hkeeps
      obtain ⟨spliced', older', hspliced', hnext, hlength⟩ := h.add hbetween hkeeps.1 other
      rw [← hlength] at hkeeps
      simp only [hspliced']
      obtain ⟨spliced'', older'', hspliced'', hlast, hless⟩ :=
        ih hnext hadd hkeeps.2 (other + 1)
      exact ⟨spliced'', older'', hspliced'', hlast,
        Nat.le_trans hless (hlength ▸ Nat.min_le_left ..)⟩

end Draft.Spliced

/-! ## Drafts on top of others -/

omit [Regexp.Matcher] in
theorem Draft.over_start (draft : Draft) : draft.over Draft.start = draft := by
  have hraise : Slot.raise 0 = id := by
    funext slot
    simp [Slot.raise]
  simp [Draft.over, start, hraise]

/-- What compiles alone compiles on top of another draft as well, whatever the index. -/
theorem Draft.addAll_over {draft draft' : Draft} {scope : Scope} {index : Nat}
    {operations : List Operation} (h : draft.addAll scope index operations = .ok draft')
    (lower : Draft) (other : Nat) :
    (draft.over lower).addAll scope other operations = .ok (draft'.over lower) := by
  have hover : draft.Spliced 0 lower.ops.toList lower.slots [] (draft.over lower) :=
    ⟨⟨[], draft.ops.toList, rfl, rfl, by simp [Draft.over]⟩,
      ⟨draft.slots, by simp, by simp [Draft.over], fun _ _ => Nat.zero_le _⟩, by simp⟩
  have hkeeps : draft.keepsOlderAll scope 0 index operations = true := keepsOlderAll_zero ..
  obtain ⟨⟨ops, slots⟩, older, hother, ⟨⟨first, behind, hfirst, hops, hmore⟩, hslots, _⟩, hnone⟩ :=
    hover.addAll h hkeeps other
  obtain rfl := List.eq_nil_of_length_eq_zero hfirst
  obtain rfl := List.eq_nil_of_length_eq_zero (Nat.le_zero.mp hnone)
  obtain ⟨newer, hnewer, hraised, _⟩ := hslots
  have hall : ops = lower.ops ++ draft'.ops := by
    refine Array.toList_inj.mp ?_
    rw [Array.toList_append, hops]
    exact hmore
  rw [List.append_nil] at hnewer
  rw [List.nil_append, Array.length_toList] at hraised
  rw [hother, Draft.over, hnewer, hall, ← hraised]

theorem Draft.addAll_of_ok {draft draft' : Draft} {scope : Scope} {index : Nat}
    {operations : List Operation} (h : draft.addAll scope index operations = .ok draft')
    (other : Nat) : draft.addAll scope other operations = .ok draft' := by
  have hover := addAll_over h start other
  rwa [over_start, over_start] at hover

end RecordQuery.Compile
