import Mathlib

/-!
# Rules ranked by priority

The rule in force is the first one of the highest priority among those that apply.  Here are two
ways to find it from another list: sorting, and taking the first rule that applies.  A list may
lose the rules whose name an earlier one has.  The two theorems at the end say when the outcome is
still the same, for a list and all its parts.
-/

namespace GloryHole.Support.Ranking

/-! ## The best of a list -/

section

variable {α β κ : Type} [LinearOrder κ]

theorem argmax_map (f : β → κ) (g : α → β) (l : List α) :
    (l.map g).argmax f = (l.argmax fun a => f (g a)).map g := by
  induction l with
  | nil => rfl
  | cons a l ih =>
    rw [List.map_cons, List.argmax_cons, List.argmax_cons, ih]
    cases l.argmax fun a => f (g a) with
    | none => rfl
    | some c =>
      simp only [Option.map_some]
      split <;> rfl

theorem argmin_map (f : β → κ) (g : α → β) (l : List α) :
    (l.map g).argmin f = (l.argmin fun a => f (g a)).map g :=
  @argmax_map α β κᵒᵈ _ f g l

theorem argmin_eq_argmax {κ' : Type} [LinearOrder κ'] {f : α → κ} {g : α → κ'} {l : List α}
    (h : ∀ a ∈ l, ∀ b ∈ l, f a < f b ↔ g b < g a) : l.argmin f = l.argmax g := by
  induction l with
  | nil => rfl
  | cons a l ih =>
    have hrest := ih fun b hb c hc =>
      h b (List.mem_cons_of_mem _ hb) c (List.mem_cons_of_mem _ hc)
    rw [List.argmin_cons, List.argmax_cons, hrest]
    cases hbest : l.argmax g with
    | none => rfl
    | some c =>
      have hc := List.mem_cons_of_mem a (List.argmax_mem hbest)
      simp only [h c hc a List.mem_cons_self]

/-- The head of the sorted list, where the order goes by a key and then by position. -/
theorem head?_insertionSort {le : α → α → Prop} [DecidableRel le] {key : α → κ} {l : List α}
    (h : l.Pairwise fun a b => le a b ↔ key a ≤ key b) :
    (l.insertionSort le).head? = l.argmin key := by
  induction h with
  | nil => rfl
  | @cons a l ha hl ih =>
    rw [List.insertionSort_cons, List.argmin_cons, ← ih]
    cases hsorted : l.insertionSort le with
    | nil => rfl
    | cons b sorted =>
      have hb : b ∈ l := by
        rw [← (List.perm_insertionSort le l).mem_iff, hsorted]
        exact List.mem_cons_self
      rw [List.orderedInsert, List.head?_cons]
      by_cases hle : le a b
      · have hkey := (ha b hb).mp hle
        simp [hle, not_lt.mpr hkey]
      · have hkey := fun hkey => hle ((ha b hb).mpr hkey)
        simp [hle, not_le.mp hkey]

end

/-! ## Winners -/

section

variable {ρ κ : Type} [LinearOrder κ] (prio : ρ → κ) (pos : ρ → Nat)

def Outranks (a b : ρ) : Prop := prio b < prio a ∨ (prio a = prio b ∧ pos a < pos b)

structure Winner (l : List ρ) (p : ρ → Bool) (w : ρ) : Prop where
  mem : w ∈ l
  applies : p w = true
  outranks : ∀ b ∈ l, p b = true → b = w ∨ Outranks prio pos w b

def Ordered (l : List ρ) : Prop := l.Pairwise fun a b => pos a < pos b

variable {prio pos}

theorem Outranks.not_symm {a b : ρ} (h : Outranks prio pos a b) : ¬ Outranks prio pos b a := by
  rintro (hprio | ⟨hprio, hpos⟩)
  · rcases h with h | ⟨h, -⟩
    · exact lt_asymm h hprio
    · exact hprio.ne h
  · rcases h with h | ⟨-, h⟩
    · exact h.ne hprio
    · exact Nat.lt_asymm h hpos

theorem outranks_of_not {a b : ρ} (hpos : pos a ≠ pos b) (h : ¬ Outranks prio pos a b) :
    Outranks prio pos b a := by
  rcases lt_trichotomy (prio a) (prio b) with hlt | heq | hgt
  · exact Or.inl hlt
  · exact Or.inr ⟨heq.symm, by
      have hle : ¬ pos a < pos b := fun hlt => h (Or.inr ⟨heq, hlt⟩)
      omega⟩
  · exact absurd (Or.inl hgt) h

variable {l : List ρ} {p : ρ → Bool}

theorem Ordered.sublist {l' : List ρ} (h : Ordered pos l) (hl : l'.Sublist l) :
    Ordered pos l' :=
  List.Pairwise.sublist hl h

theorem Ordered.eq_of_pos (h : Ordered pos l) {a b : ρ} (ha : a ∈ l) (hb : b ∈ l)
    (hpos : pos a = pos b) : a = b := by
  have hnodup : (l.map pos).Nodup :=
    List.pairwise_map.mpr (List.Pairwise.imp (fun hlt => Nat.ne_of_lt hlt) h)
  exact List.inj_on_of_nodup_map hnodup ha hb hpos

theorem Winner.unique {w w' : ρ} (h : Winner prio pos l p w) (h' : Winner prio pos l p w') :
    w = w' := by
  rcases h.outranks w' h'.mem h'.applies with heq | hlt
  · exact heq.symm
  · rcases h'.outranks w h.mem h.applies with heq | hlt'
    · exact heq
    · exact absurd hlt' hlt.not_symm

theorem winner_of_argmax {w : ρ} (hl : Ordered pos l) (h : (l.filter p).argmax prio = some w) :
    Winner prio pos l p w := by
  classical
  obtain ⟨hw, hle, hfirst⟩ := List.argmax_eq_some_iff.mp h
  refine ⟨(List.mem_filter.mp hw).1, (List.mem_filter.mp hw).2, ?_⟩
  intro b hb hpb
  have hb' : b ∈ l.filter p := List.mem_filter.mpr ⟨hb, hpb⟩
  rcases (hle b hb').lt_or_eq with hlt | heq
  · exact Or.inr (Or.inl hlt)
  · -- in a tie the indices decide, which go as the positions
    rcases (hfirst b hb' heq.ge).lt_or_eq with hlt | hidx
    · have hpos := List.pairwise_iff_getElem.mp (hl.sublist List.filter_sublist) _ _
        (List.idxOf_lt_length_of_mem hw) (List.idxOf_lt_length_of_mem hb') hlt
      rw [List.getElem_idxOf, List.getElem_idxOf] at hpos
      exact Or.inr (Or.inr ⟨heq.symm, hpos⟩)
    · exact Or.inl ((List.idxOf_inj hb').mp hidx.symm)

theorem argmax_filter_iff {w : ρ} (hl : Ordered pos l) :
    (l.filter p).argmax prio = some w ↔ Winner prio pos l p w := by
  constructor
  · exact winner_of_argmax hl
  · intro hw
    cases hbest : (l.filter p).argmax prio with
    | none =>
      rw [List.argmax_eq_none, List.filter_eq_nil_iff] at hbest
      exact absurd hw.applies (hbest w hw.mem)
    | some w' => rw [hw.unique (winner_of_argmax hl hbest)]

theorem exists_winner {x : ρ} (hl : Ordered pos l) (hx : x ∈ l) (hp : p x = true) :
    ∃ w, Winner prio pos l p w := by
  cases hbest : (l.filter p).argmax prio with
  | none =>
    rw [List.argmax_eq_none, List.filter_eq_nil_iff] at hbest
    exact absurd hp (hbest x hx)
  | some w => exact ⟨w, winner_of_argmax hl hbest⟩

end

/-! ## Rules dropped for their names -/

section

variable {ρ ν κ : Type} [DecidableEq ν] [LinearOrder κ] (name : ρ → ν)

/-- The rules whose name is neither taken nor the name of an earlier one. -/
def kept : List ν → List ρ → List ρ
  | _, [] => []
  | taken, x :: xs =>
    if name x ∈ taken then kept taken xs else x :: kept (taken ++ [name x]) xs

variable {name}

theorem kept_sublist (taken : List ν) (l : List ρ) : (kept name taken l).Sublist l := by
  induction l generalizing taken with
  | nil => exact List.Sublist.refl []
  | cons x l ih =>
    rw [kept]
    split
    · exact (ih taken).cons x
    · exact (ih _).cons_cons x

theorem name_not_mem_of_mem_kept {taken : List ν} {l : List ρ} {x : ρ}
    (h : x ∈ kept name taken l) : name x ∉ taken := by
  induction l generalizing taken with
  | nil => cases h
  | cons y l ih =>
    rw [kept] at h
    split at h
    · exact ih h
    · rename_i hy
      rcases List.mem_cons.mp h with rfl | h
      · exact hy
      · exact fun hx => ih h (List.mem_append_left _ hx)

theorem kept_map {σ : Type} (f : σ → ρ) (taken : List ν) (l : List σ) :
    kept name taken (l.map f) = (kept (fun x => name (f x)) taken l).map f := by
  induction l generalizing taken with
  | nil => rfl
  | cons x l ih =>
    rw [List.map_cons, kept, kept, ih, ih]
    split <;> rfl

theorem mem_kept_iff {pos : ρ → Nat} {taken : List ν} {l : List ρ} (hl : Ordered pos l)
    {x : ρ} :
    x ∈ kept name taken l ↔
      x ∈ l ∧ name x ∉ taken ∧ ∀ b ∈ l, name b = name x → pos x ≤ pos b := by
  induction l generalizing taken with
  | nil => simp [kept]
  | cons y l ih =>
    obtain ⟨hy, hl⟩ := List.pairwise_cons.mp hl
    rw [kept]
    split
    · rename_i htaken
      rw [ih hl]
      constructor
      · rintro ⟨hx, hfree, hfirst⟩
        refine ⟨List.mem_cons_of_mem _ hx, hfree, ?_⟩
        intro b hb hname
        rcases List.mem_cons.mp hb with rfl | hb
        · exact absurd (hname ▸ htaken) hfree
        · exact hfirst b hb hname
      · rintro ⟨hx, hfree, hfirst⟩
        rcases List.mem_cons.mp hx with rfl | hx
        · exact absurd htaken hfree
        · exact ⟨hx, hfree, fun b hb => hfirst b (List.mem_cons_of_mem _ hb)⟩
    · rename_i hfresh
      rw [List.mem_cons, ih hl, List.mem_append, List.mem_singleton]
      constructor
      · rintro (rfl | ⟨hx, hfree, hfirst⟩)
        · refine ⟨List.mem_cons_self, hfresh, ?_⟩
          intro b hb _
          rcases List.mem_cons.mp hb with rfl | hb
          · exact Nat.le_refl _
          · exact (hy b hb).le
        · refine ⟨List.mem_cons_of_mem _ hx, fun h => hfree (Or.inl h), ?_⟩
          intro b hb hname
          rcases List.mem_cons.mp hb with rfl | hb
          · exact absurd (Or.inr hname.symm) hfree
          · exact hfirst b hb hname
      · rintro ⟨hx, hfree, hfirst⟩
        rcases List.mem_cons.mp hx with rfl | hx
        · exact Or.inl rfl
        · refine Or.inr ⟨hx, ?_, fun b hb => hfirst b (List.mem_cons_of_mem _ hb)⟩
          rintro (h | h)
          · exact hfree h
          · have hle := hfirst y List.mem_cons_self h.symm
            exact absurd (hy x hx) (Nat.not_lt.mpr hle)

end

/-! ## The same outcome -/

section

variable {ρ ν κ Q U : Type} [LinearOrder κ] (prio : ρ → κ) (pos : ρ → Nat)
  (means does : ρ → Q → Bool) (goal outcome : ρ → U)

def intended (l : List ρ) (q : Q) : Option U := ((l.filter (means · q)).argmax prio).map goal

theorem intended_map {σ : Type} (f : σ → ρ) (l : List σ) (q : Q) :
    intended prio means goal (l.map f) q =
      intended (fun x => prio (f x)) (fun x => means (f x)) (fun x => goal (f x)) l q := by
  rw [intended, intended, List.filter_map, argmax_map, Option.map_map]
  rfl

def Faithful (x : ρ) : Prop :=
  ∀ q, does x q = means x q ∧ (means x q = true → outcome x = goal x)

variable {prio pos means does goal outcome}

theorem intended_of_winner {l : List ρ} {q : Q} {w : ρ} (hl : Ordered pos l)
    (h : Winner prio pos l (means · q) w) : intended prio means goal l q = some (goal w) := by
  rw [intended, (argmax_filter_iff hl).mpr h, Option.map_some]

theorem intended_singleton {x : ρ} {q : Q} :
    intended prio means goal [x] q = if means x q then some (goal x) else none := by
  unfold intended
  by_cases h : means x q = true
  · rw [List.filter_cons_of_pos (p := (means · q)) h, List.filter_nil, if_pos h]
    rfl
  · rw [List.filter_cons_of_neg (p := (means · q)) h, List.filter_nil, if_neg h]
    rfl

theorem faithful_iff {x : ρ} :
    Faithful means does goal outcome x ↔
      ∀ q, (if does x q then some (outcome x) else none) =
        if means x q then some (goal x) else none := by
  constructor
  · intro h q
    obtain ⟨hdoes, houtcome⟩ := h q
    rw [hdoes]
    by_cases hm : means x q = true
    · rw [if_pos hm, if_pos hm, houtcome hm]
    · rw [if_neg hm, if_neg hm]
  · intro h q
    have hq := h q
    cases hd : does x q <;> cases hm : means x q <;> simp_all

/-! ### The first rule that applies -/

/-- Where two rules apply, taking the first one is right only if it goes where the better
one goes. -/
theorem first_iff {l : List ρ} :
    (∀ l', l'.Sublist l → ∀ q,
        (l'.find? (does · q)).map outcome = intended prio means goal l' q) ↔
      (∀ x ∈ l, Faithful means does goal outcome x) ∧
        l.Pairwise fun x y =>
          prio x < prio y → ∀ q, means x q = true → means y q = true → goal x = goal y := by
  constructor
  · intro h
    have hfaithful : ∀ x ∈ l, Faithful means does goal outcome x := by
      intro x hx
      rw [faithful_iff]
      intro q
      have hq := h [x] (List.singleton_sublist.mpr hx) q
      rw [intended_singleton] at hq
      rw [← hq]
      cases hd : does x q <;> simp [hd]
    refine ⟨hfaithful, List.pairwise_iff_forall_sublist.mpr ?_⟩
    intro x y hxy hprio q hmx hmy
    have hq := h [x, y] hxy q
    obtain ⟨hdoes, houtcome⟩ := hfaithful x (hxy.subset (by simp)) q
    have hbest : ([x, y].filter (means · q)).argmax prio = some y := by
      simp [hmx, hmy, List.argmax_cons, hprio]
    rw [intended, hbest, List.find?_cons_of_pos (p := (does · q)) (hdoes.trans hmx)] at hq
    simpa [houtcome hmx] using hq
  · rintro ⟨hfaithful, hpairs⟩ l' hl' q
    have hfaithful' := fun x hx => hfaithful x (hl'.subset hx)
    have hpairs' := hpairs.sublist hl'
    clear hfaithful hpairs hl'
    induction l' with
    | nil => rfl
    | cons x l' ih =>
      rw [List.forall_mem_cons] at hfaithful'
      obtain ⟨hdoes, houtcome⟩ := hfaithful'.1 q
      obtain ⟨hx, hrest⟩ := List.pairwise_cons.mp hpairs'
      have hih := ih hfaithful'.2 hrest
      by_cases hm : means x q = true
      · rw [List.find?_cons_of_pos (p := (does · q)) (hdoes.trans hm), intended,
          List.filter_cons_of_pos (p := (means · q)) hm, List.argmax_cons]
        cases hbest : (l'.filter (means · q)).argmax prio with
        | none => simp [houtcome hm]
        | some c =>
          have hc := List.mem_filter.mp (List.argmax_mem hbest)
          dsimp only
          split
          · rename_i hlt
            simp [houtcome hm, hx c hc.1 hlt q hm hc.2]
          · simp [houtcome hm]
      · have hd : ¬ does x q = true := by rwa [hdoes]
        rw [List.find?_cons_of_neg (p := (does · q)) hd, hih, intended, intended,
          List.filter_cons_of_neg (p := (means · q)) hm]

/-! ### The best of the rules that are kept -/

section

variable [DecidableEq ν] {name : ρ → ν} {taken : List ν}

/-- Whenever the later rule `y` applies, the earlier rule `x` of its name does its work: it
outranks `y`, or goes where `y` goes and so does every rule ranked between them. -/
def Covers (prio : ρ → κ) (pos : ρ → Nat) (means : ρ → Q → Bool) (goal : ρ → U) (l : List ρ)
    (x y : ρ) : Prop :=
  ∀ q, means y q = true →
    means x q = true ∧
      (Outranks prio pos x y ∨
        (goal x = goal y ∧ ∀ z ∈ l, means z q = true → Outranks prio pos y z →
          Outranks prio pos z x → goal z = goal y))

def actual (prio : ρ → κ) (does : ρ → Q → Bool) (outcome : ρ → U) (name : ρ → ν)
    (taken : List ν) (l : List ρ) (q : Q) : Option U :=
  (((kept name taken l).filter (does · q)).argmax prio).map outcome

theorem actual_map {σ : Type} (f : σ → ρ) (l : List σ) (q : Q) :
    actual prio does outcome name taken (l.map f) q =
      actual (fun x => prio (f x)) (fun x => does (f x)) (fun x => outcome (f x))
        (fun x => name (f x)) taken l q := by
  rw [actual, actual, kept_map, List.filter_map, argmax_map, Option.map_map]
  rfl

variable {l : List ρ}

theorem exists_winner_of_actual {q : Q} {u : U} (hl : Ordered pos l)
    (h : actual prio does outcome name taken l q = some u) :
    ∃ e, Winner prio pos (kept name taken l) (does · q) e ∧ outcome e = u := by
  obtain ⟨e, he, hu⟩ := Option.map_eq_some_iff.mp h
  exact ⟨e, (argmax_filter_iff (hl.sublist (kept_sublist taken l))).mp he, hu⟩

theorem actual_of_winner {q : Q} {e : ρ} (hl : Ordered pos l)
    (h : Winner prio pos (kept name taken l) (does · q) e) :
    actual prio does outcome name taken l q = some (outcome e) := by
  rw [actual, (argmax_filter_iff (hl.sublist (kept_sublist taken l))).mpr h, Option.map_some]

theorem exists_mem_kept (hl : Ordered pos l) {w : ρ} (hw : w ∈ l) (hfree : name w ∉ taken) :
    ∃ x ∈ kept name taken l, name x = name w ∧ pos x ≤ pos w := by
  -- the first rule of the name wins if all have one priority
  obtain ⟨x, hx⟩ := @exists_winner ρ Nat _ (fun _ => 0) pos l (fun b => decide (name b = name w)) w
    hl hw (decide_eq_true rfl)
  have hname : name x = name w := of_decide_eq_true hx.applies
  have hfirst : ∀ b ∈ l, name b = name w → pos x ≤ pos b := by
    intro b hb hnameb
    rcases hx.outranks b hb (decide_eq_true hnameb) with rfl | hout
    · exact Nat.le_refl _
    · exact (hout.resolve_left (Nat.lt_irrefl 0)).2.le
  refine ⟨x, (mem_kept_iff hl).mpr ⟨hx.mem, hname ▸ hfree, ?_⟩, hname, hfirst w hw rfl⟩
  intro b hb hnameb
  exact hfirst b hb (hnameb.trans hname)

theorem actual_singleton {x : ρ} {q : Q} (hfree : does x q = true → name x ∉ taken) :
    actual prio does outcome name taken [x] q = if does x q then some (outcome x) else none := by
  by_cases hd : does x q = true
  · have hkept : kept name taken [x] = [x] := by rw [kept, if_neg (hfree hd), kept]
    rw [actual, hkept]
    exact intended_singleton
  · have hnone : (kept name taken [x]).filter (does · q) = [] := by
      rw [List.filter_eq_nil_iff]
      intro y hy
      rwa [List.mem_singleton.mp ((kept_sublist taken [x]).subset hy)]
    rw [actual, hnone, if_neg hd]
    rfl

section Necessity

variable {l : List ρ} (hfree : ∀ x ∈ l, ∀ q, does x q = true → name x ∉ taken)
  (h : ∀ l', l'.Sublist l → ∀ q,
    actual prio does outcome name taken l' q = intended prio means goal l' q)

include hfree h

theorem faithful_of_actual {x : ρ} (hx : x ∈ l) : Faithful means does goal outcome x := by
  rw [faithful_iff]
  intro q
  have hq := h [x] (List.singleton_sublist.mpr hx) q
  rwa [actual_singleton (hfree x hx q), intended_singleton] at hq

variable (hl : Ordered pos l)

include hl

/-- If a part of the list goes where `y` goes, a rule that is kept takes it there. -/
theorem exists_kept_of_winner {l' : List ρ} (hl' : l'.Sublist l) {q : Q} {y : ρ}
    (hy : Winner prio pos l' (means · q) y) :
    ∃ e, Winner prio pos (kept name taken l') (means · q) e ∧ goal e = goal y := by
  have hactual := (h l' hl' q).trans (intended_of_winner (hl.sublist hl') hy)
  obtain ⟨e, he, houtcome⟩ := exists_winner_of_actual (hl.sublist hl') hactual
  have hmem {b : ρ} (hb : b ∈ kept name taken l') : b ∈ l :=
    hl'.subset ((kept_sublist taken l').subset hb)
  have hsame {b : ρ} (hb : b ∈ kept name taken l') : does b q = means b q :=
    (faithful_of_actual hfree h (hmem hb) q).1
  have happlies : means e q = true := (hsame he.mem).symm.trans he.applies
  refine ⟨e, ⟨he.mem, happlies, ?_⟩, ?_⟩
  · intro b hb hm
    exact he.outranks b hb ((hsame hb).trans hm)
  · rw [← houtcome, (faithful_of_actual hfree h (hmem he.mem) q).2 happlies]

theorem goal_eq_of_dropped {x y : ρ} (hx : x ∈ l) (hy : y ∈ l) (hname : name x = name y)
    (hpos : pos x < pos y) {q : Q} (hmeans : means y q = true)
    (hnot : ¬ (means x q = true ∧ Outranks prio pos x y)) :
    means x q = true ∧ goal x = goal y := by
  classical
  have hpart : (l.filter (· ∈ [x, y])).Sublist l := List.filter_sublist
  have hmem {b : ρ} (hb : b ∈ l.filter (· ∈ [x, y])) : b = x ∨ b = y := by
    simpa using (List.mem_filter.mp hb).2
  have hwinner : Winner prio pos (l.filter (· ∈ [x, y])) (means · q) y := by
    refine ⟨by simp [hy], hmeans, ?_⟩
    intro b hb hm
    rcases hmem hb with rfl | rfl
    · exact Or.inr (outranks_of_not hpos.ne fun hout => hnot ⟨hm, hout⟩)
    · exact Or.inl rfl
  obtain ⟨e, he, hgoal⟩ := exists_kept_of_winner hfree h hl hpart hwinner
  obtain ⟨hemem, -, hfirst⟩ := (mem_kept_iff (hl.sublist hpart)).mp he.mem
  rcases hmem hemem with rfl | rfl
  · exact ⟨he.applies, hgoal⟩
  · exact absurd (hfirst x (by simp [hx]) hname) (Nat.not_le.mpr hpos)

theorem covers_of_actual {x y : ρ} (hx : x ∈ l) (hy : y ∈ l) (hname : name x = name y)
    (hpos : pos x < pos y) : Covers prio pos means goal l x y := by
  classical
  intro q hmeans
  by_cases hout : means x q = true ∧ Outranks prio pos x y
  · exact ⟨hout.1, Or.inl hout.2⟩
  obtain ⟨hmx, hgoal⟩ := goal_eq_of_dropped hfree h hl hx hy hname hpos hmeans hout
  have hyx : Outranks prio pos y x := outranks_of_not hpos.ne fun hxy => hout ⟨hmx, hxy⟩
  refine ⟨hmx, Or.inr ⟨hgoal, ?_⟩⟩
  intro z hz hmz hyz hzx
  by_cases hnamez : name z = name x
  · -- a rule of the same name: it is kept instead of `x`, or dropped like `y`
    rcases Nat.lt_trichotomy (pos z) (pos x) with hlt | heq | hgt
    · exact (goal_eq_of_dropped hfree h hl hz hy (hnamez.trans hname) (hlt.trans hpos) hmeans
        fun hzy => hyz.not_symm hzy.2).2
    · rw [hl.eq_of_pos hz hx heq] at hzx
      exact absurd hzx hzx.not_symm
    · have hxz := (goal_eq_of_dropped hfree h hl hx hz hnamez.symm hgt hmz
        fun hxz => hzx.not_symm hxz.2).2
      exact hxz.symm.trans hgoal
  · have hpart : (l.filter (· ∈ [x, y, z])).Sublist l := List.filter_sublist
    have hmem {b : ρ} (hb : b ∈ l.filter (· ∈ [x, y, z])) : b = x ∨ b = y ∨ b = z := by
      simpa using (List.mem_filter.mp hb).2
    have hwinner : Winner prio pos (l.filter (· ∈ [x, y, z])) (means · q) y := by
      refine ⟨by simp [hy], hmeans, ?_⟩
      intro b hb hm
      rcases hmem hb with rfl | rfl | rfl
      · exact Or.inr hyx
      · exact Or.inl rfl
      · exact Or.inr hyz
    obtain ⟨e, he, hgoale⟩ := exists_kept_of_winner hfree h hl hpart hwinner
    obtain ⟨hemem, -, hfirst⟩ := (mem_kept_iff (hl.sublist hpart)).mp he.mem
    have hzkept : z ∈ kept name taken (l.filter (· ∈ [x, y, z])) := by
      rw [mem_kept_iff (hl.sublist hpart)]
      have hdoes := (faithful_of_actual hfree h hz q).1.trans hmz
      refine ⟨by simp [hz], hfree z hz q hdoes, ?_⟩
      intro b hb hnameb
      rcases hmem hb with rfl | rfl | rfl
      · exact absurd hnameb.symm hnamez
      · exact absurd (hnameb.symm.trans hname.symm) hnamez
      · exact Nat.le_refl _
    rcases hmem hemem with rfl | rfl | rfl
    · rcases he.outranks z hzkept hmz with rfl | hxz
      · exact hgoale
      · exact absurd hxz hzx.not_symm
    · exact absurd (hfirst x (by simp [hx]) hname) (Nat.not_le.mpr hpos)
    · exact hgoale

end Necessity

theorem actual_eq_intended (hl : Ordered pos l)
    (hfree : ∀ x ∈ l, ∀ q, does x q = true → name x ∉ taken)
    (hfaithful : ∀ x ∈ l, Faithful means does goal outcome x)
    (hcovers : ∀ x ∈ l, ∀ y ∈ l, name x = name y → pos x < pos y → Covers prio pos means goal l x y)
    (q : Q) :
    actual prio does outcome name taken l q = intended prio means goal l q := by
  have hsub : (kept name taken l).Sublist l := kept_sublist taken l
  cases hbest : (l.filter (means · q)).argmax prio with
  | none =>
    rw [intended, hbest]
    rw [List.argmax_eq_none, List.filter_eq_nil_iff] at hbest
    have hnone : (kept name taken l).filter (does · q) = [] := by
      rw [List.filter_eq_nil_iff]
      intro x hx
      have hmem := hsub.subset hx
      rw [(hfaithful x hmem q).1]
      exact hbest x hmem
    rw [actual, hnone]
    rfl
  | some w =>
    have hw := winner_of_argmax hl hbest
    have hdoesw := (hfaithful w hw.mem q).1.trans hw.applies
    obtain ⟨x, hx, hname, hpos⟩ := exists_mem_kept hl hw.mem (hfree w hw.mem q hdoesw)
    have hxmem := hsub.subset hx
    rw [intended, hbest, Option.map_some]
    -- the winner is kept, or an earlier rule of its name is
    rcases Nat.eq_or_lt_of_le hpos with heq | hlt
    · obtain rfl := hl.eq_of_pos hxmem hw.mem heq
      have hwinner : Winner prio pos (kept name taken l) (does · q) x := by
        refine ⟨hx, hdoesw, ?_⟩
        intro b hb hd
        have hmem := hsub.subset hb
        exact hw.outranks b hmem ((hfaithful b hmem q).1.symm.trans hd)
      rw [actual_of_winner hl hwinner, (hfaithful x hxmem q).2 hw.applies]
    · obtain ⟨hmx, hcover⟩ := hcovers x hxmem w hw.mem hname hlt q hw.applies
      have hwx : Outranks prio pos w x := by
        rcases hw.outranks x hxmem hmx with rfl | hwx
        · exact absurd hlt (Nat.lt_irrefl _)
        · exact hwx
      obtain ⟨hgoal, hbetween⟩ := hcover.resolve_left hwx.not_symm
      have hdoesx := (hfaithful x hxmem q).1.trans hmx
      obtain ⟨e, he⟩ : ∃ e, Winner prio pos (kept name taken l) (does · q) e :=
        exists_winner (hl.sublist hsub) hx hdoesx
      have hemem := hsub.subset he.mem
      have hme := (hfaithful e hemem q).1.symm.trans he.applies
      rw [actual_of_winner hl he, (hfaithful e hemem q).2 hme]
      congr 1
      rcases he.outranks x hx hdoesx with rfl | hex
      · exact hgoal
      · rcases hw.outranks e hemem hme with rfl | hwe
        · rfl
        · exact hbetween e hemem hme hwe hex

/-- Dropping rules for their names is right only if what is dropped was covered. -/
theorem kept_iff (hl : Ordered pos l) (hfree : ∀ x ∈ l, ∀ q, does x q = true → name x ∉ taken) :
    (∀ l', l'.Sublist l → ∀ q,
        actual prio does outcome name taken l' q = intended prio means goal l' q) ↔
      (∀ x ∈ l, Faithful means does goal outcome x) ∧
        ∀ x ∈ l, ∀ y ∈ l, name x = name y → pos x < pos y →
          Covers prio pos means goal l x y := by
  constructor
  · intro h
    exact ⟨fun x hx => faithful_of_actual hfree h hx,
      fun x hx y hy hname hpos => covers_of_actual hfree h hl hx hy hname hpos⟩
  · rintro ⟨hfaithful, hcovers⟩ l' hl' q
    apply actual_eq_intended (hl.sublist hl') (fun x hx => hfree x (hl'.subset hx))
      (fun x hx => hfaithful x (hl'.subset hx))
    intro x hx y hy hname hpos q' hm
    obtain ⟨hmx, hcover⟩ := hcovers x (hl'.subset hx) y (hl'.subset hy) hname hpos q' hm
    refine ⟨hmx, hcover.imp_right ?_⟩
    rintro ⟨hgoal, hbetween⟩
    exact ⟨hgoal, fun z hz => hbetween z (hl'.subset hz)⟩

end

end

end GloryHole.Support.Ranking
