/-
Module: MallocHook.Lib.SliceStack
Purpose: Slices as a trace viewer draws them: an end closes the newest open begin. When what is drawn is
  what was meant.
Trusted boundary: none
Main exports: matchSlices, sliceMarks, matchSlices_between
-/
import Mathlib.Data.List.Sort

section

open List

variable {β ε γ : Type*}

/-- An end closes the newest begin that is open; without one it is skipped. -/
def matchSlices : List β → List (β ⊕ ε) → List (β × ε)
  | _, [] => []
  | stack, .inl begin :: rest => matchSlices (begin :: stack) rest
  | [], .inr _ :: rest => matchSlices [] rest
  | begin :: stack, .inr stop :: rest => (begin, stop) :: matchSlices stack rest

/-- The marks of slices, one slice after the other. -/
def sliceMarks (slices : List (β × ε)) : List (β ⊕ ε) :=
  slices.flatMap fun slice => [.inl slice.1, .inr slice.2]

variable {slices : List (β × ε)}

theorem forall_mem_sliceMarks {P : β ⊕ ε → Prop} :
    (∀ mark ∈ sliceMarks slices, P mark) ↔ ∀ slice ∈ slices, P (.inl slice.1) ∧ P (.inr slice.2) := by
  simp only [sliceMarks, forall_mem_flatMap, forall_mem_cons, not_mem_nil, false_imp_iff,
    implies_true, and_true]

theorem pairwise_sliceMarks {R : β ⊕ ε → β ⊕ ε → Prop} :
    (sliceMarks slices).Pairwise R ↔ (∀ slice ∈ slices, R (.inl slice.1) (.inr slice.2)) ∧
      slices.Pairwise fun one two => (R (.inl one.1) (.inl two.1) ∧ R (.inl one.1) (.inr two.2)) ∧
        R (.inr one.2) (.inl two.1) ∧ R (.inr one.2) (.inr two.2) := by
  simp [sliceMarks, pairwise_flatMap]

theorem mem_sliceMarks {mark : β ⊕ ε} :
    mark ∈ sliceMarks slices ↔ ∃ slice ∈ slices, mark = .inl slice.1 ∨ mark = .inr slice.2 := by
  simp [sliceMarks, mem_flatMap]

/-- The begins first, and then the ends. -/
theorem sliceMarks_perm (slices : List (β × ε)) :
    (sliceMarks slices).Perm (slices.map (fun slice => .inl slice.1) ++ slices.map fun slice =>
      .inr slice.2) := by
  induction slices with
  | nil => exact .nil
  | cons slice rest ih => exact ((ih.cons _).trans perm_middle.symm).cons _

theorem matchSlices_sliceMarks (slices : List (β × ε)) : matchSlices [] (sliceMarks slices) = slices := by
  induction slices with
  | nil => rfl
  | cons slice rest ih => exact congrArg (slice :: ·) ih

theorem matchSlices_begins (stack begins : List β) (rest : List (β ⊕ ε)) :
    matchSlices stack (begins.map .inl ++ rest) = matchSlices (begins.reverse ++ stack) rest := by
  induction begins generalizing stack with
  | nil => rfl
  | cons begin later ih => simpa [matchSlices] using ih (begin :: stack)

theorem matchSlices_ends {stack : List β} {ends : List ε} (same : stack.length = ends.length)
    (rest : List (β ⊕ ε)) :
    matchSlices stack (ends.map .inr ++ rest) = stack.zip ends ++ matchSlices [] rest := by
  induction stack generalizing ends with
  | nil =>
      obtain rfl := length_eq_zero_iff.1 same.symm
      rfl
  | cons begin stack ih =>
      cases ends with
      | nil => cases same
      | cons stop ends => exact congrArg (_ :: ·) (ih (Nat.succ.inj same))

/-- What is matched behind some marks is matched from the stack that they leave. -/
theorem exists_stack (stack : List β) (front back : List (β ⊕ ε)) :
    ∃ stack', matchSlices stack' back ⊆ matchSlices stack (front ++ back) := by
  fun_induction matchSlices stack front with
  | case1 stack => exact ⟨stack, List.Subset.refl _⟩
  | case2 stack begin rest ih => exact ih
  | case3 stop rest ih => exact ih
  | case4 begin stack stop rest ih =>
      obtain ⟨stack', behind⟩ := ih
      exact ⟨stack', List.Subset.trans behind (subset_cons_self _ _)⟩

/-- A begin that is open is closed before an end, or that end closes it or one that is newer. -/
theorem matchSlices_open (begin : β) (above stack : List β) (stop : ε) (middle back : List (β ⊕ ε)) :
    (∃ early, .inr early ∈ middle ∧
        (begin, early) ∈ matchSlices (above ++ begin :: stack) (middle ++ .inr stop :: back)) ∨
      ∃ newer, (newer = begin ∨ newer ∈ above ∨ .inl newer ∈ middle) ∧
        (newer, stop) ∈ matchSlices (above ++ begin :: stack) (middle ++ .inr stop :: back) := by
  induction middle generalizing above with
  | nil =>
      cases above with
      | nil => exact .inr ⟨begin, .inl rfl, mem_cons_self⟩
      | cons newer above => exact .inr ⟨newer, .inr (.inl mem_cons_self), mem_cons_self⟩
  | cons mark middle ih =>
      cases mark with
      | inl opened =>
          rcases ih (opened :: above) with ⟨early, there, closed⟩ | ⟨newer, isNewer, closed⟩
          · exact .inl ⟨early, mem_cons_of_mem _ there, closed⟩
          · refine .inr ⟨newer, ?_, closed⟩
            simp only [mem_cons, Sum.inl.injEq] at isNewer ⊢
            tauto
      | inr early =>
          cases above with
          | nil => exact .inl ⟨early, mem_cons_self, mem_cons_self⟩
          | cons newest above =>
              rcases ih above with ⟨early, there, closed⟩ | ⟨newer, isNewer, closed⟩
              · exact .inl ⟨early, mem_cons_of_mem _ there, mem_cons_of_mem _ closed⟩
              · refine .inr ⟨newer, ?_, mem_cons_of_mem _ closed⟩
                simp only [mem_cons] at isNewer ⊢
                tauto

section

variable {lt : β ⊕ ε → β ⊕ ε → Prop} [IsStrictOrder (β ⊕ ε) lt] {slices : List (β × ε)}
    {sorted : List (β ⊕ ε)}

/-- The same for marks in order. -/
theorem matchSlices_between {begin : β} {stop : ε} (ordered : sorted.Pairwise lt)
    (begins : .inl begin ∈ sorted) (ends : .inr stop ∈ sorted) (before : lt (.inl begin) (.inr stop)) :
    (∃ early, lt (.inr early) (.inr stop) ∧ (begin, early) ∈ matchSlices [] sorted) ∨
      ∃ newer, (newer = begin ∨ lt (.inl begin) (.inl newer)) ∧ (newer, stop) ∈ matchSlices [] sorted := by
  obtain ⟨front, back, rfl⟩ := append_of_mem begins
  rw [pairwise_append, pairwise_cons] at ordered
  obtain ⟨_, ⟨behind, ordered⟩, ahead⟩ := ordered
  have ends : .inr stop ∈ back := by
    rcases mem_append.1 ends with there | there
    · exact absurd (ahead _ there _ mem_cons_self) (asymm before)
    · exact (mem_cons.1 there).resolve_left Sum.inr_ne_inl
  obtain ⟨middle, back, rfl⟩ := append_of_mem ends
  obtain ⟨stack, later⟩ := exists_stack [] front (.inl begin :: (middle ++ .inr stop :: back))
  rcases matchSlices_open begin [] stack stop middle
    back with ⟨early, there, closed⟩ | ⟨newer, isNewer, closed⟩
  · exact .inl ⟨early, (pairwise_append.1 ordered).2.2 _ there _ mem_cons_self, later closed⟩
  · refine .inr ⟨newer, isNewer.imp_right fun there => ?_, later closed⟩
    exact behind _ (mem_append_left _ (there.resolve_left not_mem_nil))

/-- Slices that begin and end in the same order. The matching finds them exactly if each ends before the
next begins: otherwise the begin of the next or the end of the first gets the wrong partner. -/
theorem matchSlices_perm_iff
    (inOrder : slices.Pairwise fun one two => lt (.inl one.1) (.inl two.1) ∧ lt (.inr one.2) (.inr two.2))
    (own : ∀ slice ∈ slices, lt (.inl slice.1) (.inr slice.2))
    (decided : slices.Pairwise fun one two => lt (.inr one.2) (.inl two.1) ∨ lt (.inl two.1) (.inr one.2))
    (perm : sorted.Perm (sliceMarks slices)) (ordered : sorted.Pairwise lt) :
    (matchSlices [] sorted).Perm slices ↔ slices.Pairwise fun one two => lt (.inr one.2) (.inl two.1) := by
  constructor
  · intro found
    have begins : (slices.map Prod.fst).Nodup := pairwise_map.2 (inOrder.imp fun order same => by
      rw [same] at order
      exact irrefl _ order.1)
    have ends : (slices.map Prod.snd).Nodup := pairwise_map.2 (inOrder.imp fun order same => by
      rw [same] at order
      exact irrefl _ order.2)
    refine (inOrder.and decided).imp_of_mem fun {one two} memberOne memberTwo ⟨order, decided⟩ => ?_
    refine decided.resolve_right fun inside => ?_
    rcases matchSlices_between ordered (perm.mem_iff.2 (mem_sliceMarks.2 ⟨two, memberTwo, .inl rfl⟩))
      (perm.mem_iff.2 (mem_sliceMarks.2 ⟨one, memberOne, .inr rfl⟩)) inside with
      ⟨early, before, closed⟩ | ⟨newer, isNewer, closed⟩
    · have same : early = two.2 := congrArg Prod.snd
        (inj_on_of_nodup_map begins (found.mem_iff.1 closed) memberTwo rfl)
      rw [same] at before
      exact asymm before order.2
    · have same : newer = one.1 := congrArg Prod.fst
        (inj_on_of_nodup_map ends (found.mem_iff.1 closed) memberOne rfl)
      rw [same] at isNewer
      rcases isNewer with same | newer
      · rw [same] at order
        exact irrefl _ order.1
      · exact asymm newer order.1
  · intro apart
    have marks : (sliceMarks slices).Pairwise lt := by
      refine pairwise_sliceMarks.2 ⟨own, (inOrder.and
        apart).imp_of_mem fun {one two} memberOne _ ⟨order, apart⟩ => ?_⟩
      exact ⟨⟨order.1, IsTrans.trans _ _ _ (own one memberOne) order.2⟩, apart, order.2⟩
    rw [perm.eq_of_pairwise' ordered marks, matchSlices_sliceMarks]

/-- The start, the end and the label that are drawn. -/
def drawn (start : β → Nat) (finish : ε → Nat) (label : β → γ) (slice : β × ε) : Nat × Nat × γ :=
  (start slice.1, finish slice.2, label slice.1)

/-- The time of a mark. -/
def markTime (start : β → Nat) (finish : ε → Nat) : β ⊕ ε → Nat := Sum.elim start finish

variable {start : β → Nat} {finish : ε → Nat} {label : β → γ} {length : Nat}

theorem map_drawn_zip {stack : List β} {ends : List ε} {now : Nat} (same : stack.length = ends.length)
    (begun : ∀ begin ∈ stack, start begin = now) (ending : ∀ stop ∈ ends, finish stop = now + length) :
    (stack.zip ends).map (drawn start finish label) = stack.map fun begin =>
    (now, now + length, label begin) := by
  induction stack generalizing ends with
  | nil => rfl
  | cons begin stack ih =>
      cases ends with
      | nil => cases same
      | cons stop ends =>
          obtain ⟨begunFirst, begun⟩ := forall_mem_cons.1 begun
          obtain ⟨endingFirst, ending⟩ := forall_mem_cons.1 ending
          rw [zip_cons_cons, map_cons, map_cons, ih (Nat.succ.inj same) begun ending, drawn,
            begunFirst, endingFirst]

/-- Slices that begin together are drawn as they should be: which end closes which begin makes no
difference. -/
theorem drawn_together {now : Nat} (begun : ∀ slice ∈ slices, start slice.1 = now)
    (lasts : ∀ slice ∈ slices, finish slice.2 = start slice.1 + length) (rest : List (β ⊕ ε)) :
    ((matchSlices [] (slices.map (fun slice => .inl slice.1) ++
      (slices.map (fun slice => .inr slice.2) ++ rest))).map (drawn start finish label)).Perm
      (slices.map (drawn start finish label) ++ (matchSlices [] rest).map (drawn start finish label)) := by
  have begins : slices.map (fun slice => (.inl slice.1 : β ⊕ ε)) = (slices.map Prod.fst).map .inl := by simp
  have ends : slices.map (fun slice => (.inr slice.2 : β ⊕ ε)) = (slices.map Prod.snd).map .inr := by simp
  have each : slices.map (drawn start finish label) =
      (slices.map Prod.fst).map fun begin => (now, now + length, label begin) := by
    rw [map_map]
    refine map_congr_left fun slice there => ?_
    rw [drawn, lasts slice there, begun slice there]
    rfl
  have open_ : ∀ begin ∈ (slices.map Prod.fst).reverse, start begin = now := by
    simpa using fun begin stop => begun (begin, stop)
  have ending : ∀ stop ∈ slices.map Prod.snd, finish stop = now + length :=
    forall_mem_map.2 fun slice there => by
    rw [lasts slice there, begun slice there]
  rw [begins, ends, matchSlices_begins, append_nil, matchSlices_ends (by simp), map_append, each,
    map_drawn_zip (by simp) open_ ending]
  exact ((reverse_perm _).map _).append_right _

/-- Of slices in order, those that begin together with the first come before those that begin when it has
ended. -/
theorem exists_together {first : β × ε} {rest : List (β × ε)}
    (inOrder : rest.Pairwise fun one two => start one.1 ≤ start two.1)
    (apart : ∀ slice ∈ rest, start first.1 = start slice.1 ∨ start first.1 + length ≤ start slice.1) :
    ∃ group later, rest = group ++ later ∧ (∀ slice ∈ group, start slice.1 = start first.1) ∧
      ∀ slice ∈ later, start first.1 + length ≤ start slice.1 := by
  induction rest with
  | nil => exact ⟨[], [], rfl, by simp, by simp⟩
  | cons slice rest ih =>
      obtain ⟨notBefore, inOrder⟩ := pairwise_cons.1 inOrder
      obtain ⟨together | away, apart⟩ := forall_mem_cons.1 apart
      · obtain ⟨group, later, rfl, begun, away⟩ := ih inOrder apart
        exact ⟨slice :: group, later, rfl, forall_mem_cons.2 ⟨together.symm, begun⟩, away⟩
      · exact ⟨[], slice :: rest, rfl, by simp, forall_mem_cons.2
          ⟨away, fun other there => away.trans (notBefore other there)⟩⟩

variable (positive : 0 < length)
  (byTime : ∀ one two, markTime start finish one < markTime start finish two → lt one two)
  (inTime : ∀ one two, lt one two → markTime start finish one ≤ markTime start finish two)
  (lasts : ∀ slice ∈ slices, finish slice.2 = start slice.1 + length)
  (inOrder : slices.Pairwise fun one two => lt (.inl one.1) (.inl two.1) ∧ lt (.inr one.2) (.inr two.2) ∧
    (finish one.2 ≤ start two.1 → lt (.inr one.2) (.inl two.1)))
include positive byTime inTime lasts inOrder

/-- Slices of one length any two of which begin together or do not overlap: in order, those that begin
with the first come first, all their begins before their ends. -/
theorem exists_drawn_marks
    (apart : slices.Pairwise fun one two => start one.1 = start two.1 ∨ start one.1 + length ≤ start two.1) :
    ∃ marks, marks.Perm (sliceMarks slices) ∧ marks.Pairwise lt ∧
      ((matchSlices [] marks).map (drawn start finish label)).Perm
        (slices.map (drawn start finish label)) := by
  induction isSize : slices.length using Nat.strong_induction_on generalizing slices with
  | _ size ih =>
  cases slices with
  | nil => exact ⟨[], .nil, .nil, .nil⟩
  | cons first rest =>
      obtain ⟨others, later, rfl, begun, away⟩ := exists_together
        ((pairwise_cons.1 inOrder).2.imp fun order => inTime _ _ order.1) (pairwise_cons.1 apart).1
      replace begun : ∀ slice ∈ first :: others, start slice.1 = start first.1 :=
        forall_mem_cons.2 ⟨rfl, begun⟩
      have fewer : later.length < size := by
        rw [← isSize, length_cons, length_append]
        omega
      rw [← cons_append] at lasts inOrder apart ⊢
      generalize first :: others = group at *
      obtain ⟨orderGroup, orderLater, before⟩ := pairwise_append.1 inOrder
      obtain ⟨lastsGroup, lastsLater⟩ := forall_mem_append.1 lasts
      obtain ⟨marks, perm, ordered, drawnLater⟩ :=
        ih _ fewer lastsLater orderLater (pairwise_append.1 apart).2.1 rfl
      have within : ∀ one ∈ group, ∀ two ∈ group,
        lt (.inl one.1) (.inr two.2) := fun one memberOne two memberTwo =>
        byTime _ _ (by
          change start one.1 < finish two.2
          rw [lastsGroup two memberTwo, begun two memberTwo, begun one memberOne]
          exact Nat.lt_add_of_pos_right positive)
      have closed : ∀ one ∈ group, ∀ mark ∈ marks, lt (.inr one.2) mark := by
        intro one memberOne mark member
        refine forall_mem_sliceMarks.2 (fun two memberTwo => ?_) mark (perm.mem_iff.1 member)
        obtain ⟨_, ends, apart⟩ := before one memberOne two memberTwo
        refine ⟨apart ?_, ends⟩
        rw [lastsGroup one memberOne, begun one memberOne]
        exact away two memberTwo
      refine ⟨group.map (fun slice => .inl slice.1) ++
        (group.map (fun slice => .inr slice.2) ++ marks), ?_, ?_, ?_⟩
      · rw [← append_assoc, sliceMarks, flatMap_append]
        exact (sliceMarks_perm group).symm.append perm
      · refine pairwise_append.2 ⟨pairwise_map.2 (orderGroup.imp And.left), pairwise_append.2
          ⟨pairwise_map.2 (orderGroup.imp fun order => order.2.1), ordered, forall_mem_map.2 closed⟩, ?_⟩
        exact forall_mem_map.2 fun one member => forall_mem_append.2 ⟨forall_mem_map.2 (within one member),
          fun mark there => IsTrans.trans _ _ _ (within one member one member)
            (closed one member mark there)⟩
      · rw [map_append]
        exact (drawn_together begun lastsGroup marks).trans (drawnLater.append_left _)

/-- Slices of one length that are matched stack-wise are drawn as they should be, exactly if any two of
them begin together or do not overlap. -/
theorem matchSlices_drawn_iff (perm : sorted.Perm (sliceMarks slices)) (ordered : sorted.Pairwise lt) :
    ((matchSlices [] sorted).map (drawn start finish label)).Perm (slices.map (drawn start finish label)) ↔
      slices.Pairwise fun one two => start one.1 = start two.1 ∨ start one.1 + length ≤ start two.1 := by
  constructor
  · intro found
    -- a slice that is drawn has the right length
    have right : ∀ {begin : β} {stop : ε}, (begin, stop) ∈ matchSlices [] sorted →
      finish stop = start begin + length := by
      intro begin stop matched
      obtain ⟨slice, there, same⟩ := mem_map.1 (found.mem_iff.1 (mem_map_of_mem matched))
      have begins : start slice.1 = start begin := congrArg Prod.fst same
      have ends : finish slice.2 = finish stop := congrArg (fun drawn => drawn.2.1) same
      rw [← ends, ← begins, lasts slice there]
    refine inOrder.imp_of_mem fun {one two} memberOne memberTwo order => ?_
    have notBefore : start one.1 ≤ start two.1 := inTime _ _ order.1
    have ends := lasts one memberOne
    by_contra overlap
    rcases matchSlices_between ordered (perm.mem_iff.2 (mem_sliceMarks.2 ⟨two, memberTwo, .inl rfl⟩))
      (perm.mem_iff.2 (mem_sliceMarks.2 ⟨one, memberOne, .inr rfl⟩))
      (byTime _ _ (show start two.1 < finish one.2 by omega)) with ⟨early, before, closed⟩ | ⟨newer,
        isNewer, closed⟩
    · have : finish early ≤ finish one.2 := inTime _ _ before
      have := right closed
      omega
    · have : start two.1 ≤ start newer := by
        rcases isNewer with rfl | newer
        · exact Nat.le_refl _
        · exact inTime _ _ newer
      have := right closed
      omega
  · intro apart
    obtain ⟨marks, permMarks, orderedMarks, drawnRight⟩ :=
      exists_drawn_marks positive byTime inTime lasts inOrder apart
    rwa [(perm.trans permMarks.symm).eq_of_pairwise' ordered orderedMarks]

end

end
