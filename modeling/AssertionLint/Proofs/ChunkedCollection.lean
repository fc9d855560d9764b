import AssertionLint.Proofs.QueueHistory

/-!
# Collecting in chunks

Findings may be collected in several queues whose results are collected again.
The argument goes class by class. What a limit leaves of a class is decided by
the room left by the findings with smaller keys, so it matters only whether that
room is the same. A chunk that is cut in front of a class has already filled the
limit with smaller keys, and then nothing of the class is left in the whole
either; any other chunk still has all findings with smaller keys, and of the
class itself at least as many as there is room for.
-/

namespace AssertionLint.Finding

/-- The findings with smaller keys, in the order of the list. -/
def below (k : Key) (fs : List Finding) : List Finding := fs.filter fun f => f.key < k

theorem withKey_below (j k : Key) (fs : List Finding) :
    withKey j (below k fs) = if j < k then withKey j fs else [] := by
  rw [withKey, below, List.filter_filter]
  split_ifs with hjk
  · apply List.filter_congr
    intro f _
    by_cases hf : f.key = j <;> simp [hf, hjk]
  · apply List.filter_eq_nil_iff.mpr
    intro f _
    by_cases hf : f.key = j <;> simp [hf, hjk]

theorem below_cons_of_lt {k : Key} {f : Finding} (h : f.key < k) (fs : List Finding) :
    below k (f :: fs) = f :: below k fs := by
  simp [below, h]

theorem Increasing.below_eq_nil {k : Key} {f : Finding} {fs : List Finding}
    (h : Increasing (f :: fs)) (hk : k ≤ f.key) : below k (f :: fs) = [] := by
  apply List.filter_eq_nil_iff.mpr
  intro g hg
  simpa using hk.trans (h.head_le hg)

/-- The smaller keys of an increasing list stand at its beginning. -/
theorem below_take (k : Key) {fs : List Finding} (h : Increasing fs) (n : ℕ) :
    below k (fs.take n) = (below k fs).take n := by
  induction fs generalizing n with
  | nil => simp [below]
  | cons f fs ih =>
    cases n with
    | zero => rfl
    | succ n =>
      by_cases hk : f.key < k
      · rw [List.take_succ_cons, below_cons_of_lt hk, below_cons_of_lt hk, List.take_succ_cons,
          ih h.of_cons]
      · have hcut : Increasing ((f :: fs).take (n + 1)) := h.sublist (List.take_sublist _ _)
        rw [h.below_eq_nil (not_lt.mp hk)]
        exact hcut.below_eq_nil (not_lt.mp hk)

/-- Of each class so many are left as the smaller keys leave room for. -/
theorem withKey_take (k : Key) {fs : List Finding} (h : Increasing fs) (n : ℕ) :
    withKey k (fs.take n) = (withKey k fs).take (n - (below k fs).length) := by
  induction fs generalizing n with
  | nil => simp [withKey]
  | cons f fs ih =>
    cases n with
    | zero => simp [withKey]
    | succ n =>
      rw [List.take_succ_cons]
      rcases lt_trichotomy f.key k with hk | rfl | hk
      · rw [withKey_cons_of_ne hk.ne, withKey_cons_of_ne hk.ne, below_cons_of_lt hk,
          ih h.of_cons, List.length_cons, Nat.add_sub_add_right]
      · have hnone : below f.key fs = [] := by
          simpa [below] using h.below_eq_nil le_rfl
        rw [withKey_cons_self, withKey_cons_self, h.below_eq_nil le_rfl, ih h.of_cons, hnone]
        rfl
      · have hcut : Increasing (f :: fs.take n) := h.sublist ((List.take_sublist n fs).cons_cons f)
        rw [h.withKey_eq_nil hk, hcut.withKey_eq_nil hk, List.take_nil]

theorem count_map_key (k : Key) (fs : List Finding) :
    (fs.map key).count k = (withKey k fs).length := by
  rw [List.count, List.countP_map, List.countP_eq_length_filter, withKey]
  congr 2
  funext f
  simp only [Function.comp_apply, beq_eq_decide]

end AssertionLint.Finding

namespace AssertionLint.Queue

open Finding

/-! ## Classes without a limit -/

/-- What is left of a class before the limit. -/
def Policy.kept (c : Policy) (fs : List Finding) : List Finding :=
  if c.dropRepeats then fs.take 1 else fs

variable (c : Policy)

theorem withKey_unlimited_eq_kept (p : List Finding) (k : Key) :
    withKey k (arrange c.unlimited p) = c.kept (withKey k p) :=
  withKey_unlimited c p k

theorem length_kept_le {fs gs : List Finding} (h : fs.length ≤ gs.length) :
    (c.kept fs).length ≤ (c.kept gs).length := by
  unfold Policy.kept
  split_ifs
  · simp only [List.length_take]
    omega
  · exact h

theorem kept_take_kept (fs : List Finding) (m : ℕ) :
    c.kept ((c.kept fs).take m) = (c.kept fs).take m := by
  unfold Policy.kept
  split_ifs
  · simp [List.take_take]
  · rfl

theorem kept_middle (a p b : List Finding) :
    c.kept (a ++ c.kept p ++ b) = c.kept (a ++ p ++ b) := by
  unfold Policy.kept
  split_ifs
  · cases a <;> cases p <;> simp
  · rfl

theorem take_middle {m n : ℕ} (h : m ≤ n) (a p b : List Finding) :
    (a ++ p.take n ++ b).take m = (a ++ p ++ b).take m := by
  have hpart : min (m - a.length) n = m - a.length := by omega
  have hrest : m - (a.length + min n p.length) = m - (a.length + p.length) := by omega
  simp only [List.take_append, List.take_take, List.length_append, List.length_take, hpart, hrest]

/-- A class may be cut beforehand to no less than the room there is. -/
theorem take_kept_middle {m n : ℕ} (h : m ≤ n) (a p b : List Finding) :
    (c.kept (a ++ (c.kept p).take n ++ b)).take m = (c.kept (a ++ p ++ b)).take m := by
  unfold Policy.kept
  split_ifs
  · have hmin : min m 1 ≤ min n 1 := by omega
    rw [List.take_take, List.take_take, List.take_take, take_middle hmin]
  · exact take_middle h a p b

/-- An increasing list of classes that are left whole is its own arrangement. -/
theorem unlimited_eq_self {out : List Finding} (h : Increasing out)
    (hkept : ∀ k, c.kept (withKey k out) = withKey k out) : arrange c.unlimited out = out := by
  apply eq_of_withKey (unlimited_increasing c out) h
  intro k
  rw [withKey_unlimited_eq_kept, hkept]

theorem below_unlimited_congr {p q : List Finding} {k : Key}
    (h : ∀ j < k, c.kept (withKey j p) = c.kept (withKey j q)) :
    below k (arrange c.unlimited p) = below k (arrange c.unlimited q) := by
  apply eq_of_withKey ((unlimited_increasing c p).filter _) ((unlimited_increasing c q).filter _)
  intro j
  rw [← below, ← below, withKey_below, withKey_below]
  split_ifs with hj
  · rw [withKey_unlimited_eq_kept, withKey_unlimited_eq_kept, h j hj]
  · rfl

/-- More findings have at least as many with smaller keys. -/
theorem length_below_unlimited_le {p q : List Finding} (h : p.Sublist q) (k : Key) :
    (below k (arrange c.unlimited p)).length ≤ (below k (arrange c.unlimited q)).length := by
  have hkeys : ((below k (arrange c.unlimited p)).map key).Subperm
      ((below k (arrange c.unlimited q)).map key) := by
    apply List.subperm_ext_iff.mpr
    intro j _
    rw [count_map_key, count_map_key, withKey_below, withKey_below]
    split_ifs
    · rw [withKey_unlimited_eq_kept, withKey_unlimited_eq_kept]
      exact length_kept_le c (h.filter _).length_le
    · rfl
  simpa using hkeys.length_le

/-! ## Classes with a limit -/

/-- How many findings with this key fit under the limit behind those with smaller
keys. -/
def room (p : List Finding) (k : Key) : ℕ :=
  c.limit - (below k (arrange c.unlimited p)).length

theorem room_le_of_sublist {p q : List Finding} (h : p.Sublist q) (k : Key) :
    room c q k ≤ room c p k :=
  Nat.sub_le_sub_left (length_below_unlimited_le c h k) c.limit

variable {c}

theorem withKey_arrange_of_limit (hlimit : 0 < c.limit) (p : List Finding) (k : Key) :
    withKey k (arrange c p) = (c.kept (withKey k p)).take (room c p k) := by
  rw [arrange_eq_take c p hlimit, withKey_take k (unlimited_increasing c p),
    withKey_unlimited_eq_kept, room]

theorem below_arrange (hlimit : 0 < c.limit) (p : List Finding) (k : Key) :
    below k (arrange c p) = (below k (arrange c.unlimited p)).take c.limit := by
  rw [arrange_eq_take c p hlimit, below_take k (unlimited_increasing c p)]

/-- What has been arranged once is in order and without repetitions. -/
theorem unlimited_arrange (hlimit : 0 < c.limit) (p : List Finding) :
    arrange c.unlimited (arrange c p) = arrange c p := by
  apply unlimited_eq_self c (arrange_delivery c p).increasing
  intro k
  rw [withKey_arrange_of_limit hlimit, kept_take_kept]

theorem room_arrange (hlimit : 0 < c.limit) (p : List Finding) (k : Key) :
    room c (arrange c p) k = room c p k := by
  rw [room, room, unlimited_arrange hlimit, below_arrange hlimit, List.length_take]
  omega

/-- If there is room for a class, the classes before it are complete. -/
theorem withKey_arrange_of_room (hlimit : 0 < c.limit) {p : List Finding} {j k : Key}
    (hroom : 0 < room c p k) (hj : j < k) :
    withKey j (arrange c p) = c.kept (withKey j p) := by
  have hfew : (below k (arrange c.unlimited p)).length ≤ c.limit := by
    unfold room at hroom
    omega
  have hall := congrArg (withKey j) (below_arrange hlimit p k)
  rwa [List.take_of_length_le hfew, withKey_below, withKey_below, if_pos hj, if_pos hj,
    withKey_unlimited_eq_kept] at hall

theorem withKey_middle (k : Key) (a p b : List Finding) :
    withKey k (a ++ p ++ b) = withKey k a ++ withKey k p ++ withKey k b := by
  simp [withKey]

theorem room_middle (hlimit : 0 < c.limit) (a : List Finding) {p : List Finding}
    (b : List Finding) {k : Key} (hroom : 0 < room c p k) :
    room c (a ++ arrange c p ++ b) k = room c (a ++ p ++ b) k := by
  have hbelow : below k (arrange c.unlimited (a ++ arrange c p ++ b)) =
      below k (arrange c.unlimited (a ++ p ++ b)) := by
    apply below_unlimited_congr
    intro j hj
    rw [withKey_middle, withKey_middle, withKey_arrange_of_room hlimit hroom hj, kept_middle]
  rw [room, room, hbelow]

/-- Findings in the midst of others may be arranged beforehand. -/
theorem arrange_middle (c : Policy) (a p b : List Finding) :
    arrange c (a ++ arrange c p ++ b) = arrange c (a ++ p ++ b) := by
  have hpart : ∀ q : List Finding, q.Sublist (a ++ q ++ b) := fun q =>
    (List.sublist_append_right a q).trans (List.sublist_append_left (a ++ q) b)
  apply eq_of_withKey (arrange_delivery c _).increasing (arrange_delivery c _).increasing
  intro k
  rcases Nat.eq_zero_or_pos c.limit with hnone | hlimit
  · simp only [(arrange_delivery c _).unlimited hnone, withKey_unlimited_eq_kept, withKey_middle,
      kept_middle]
  rw [withKey_arrange_of_limit hlimit, withKey_arrange_of_limit hlimit]
  have hroom := room_le_of_sublist c (hpart p) k
  rcases Nat.eq_zero_or_pos (room c p k) with hfull | hopen
  · -- The middle alone leaves no room for the class, arranged or not.
    have hroom' := room_le_of_sublist c (hpart (arrange c p)) k
    rw [room_arrange hlimit, hfull] at hroom'
    rw [hfull] at hroom
    rw [Nat.le_zero.mp hroom, Nat.le_zero.mp hroom', List.take_zero, List.take_zero]
  · rw [room_middle hlimit a b hopen, withKey_middle, withKey_middle,
      withKey_arrange_of_limit hlimit]
    exact take_kept_middle c hroom _ _ _

theorem arrange_chunks (c : Policy) (a : List Finding) (chunks : List (List Finding)) :
    arrange c (a ++ chunks.flatMap (arrange c)) = arrange c (a ++ chunks.flatten) := by
  induction chunks generalizing a with
  | nil => rfl
  | cons p chunks ih =>
    rw [List.flatMap_cons, List.flatten_cons, ← List.append_assoc, ih, arrange_middle,
      List.append_assoc]

theorem flush_extend_new (c : Policy) (fs : List Finding) :
    ((new c).extend fs).flush.1 = arrange c fs := by
  simp [flush, new, extend]

theorem extend_extend (q : Queue) (fs gs : List Finding) :
    (q.extend fs).extend gs = q.extend (fs ++ gs) := by
  have hpending : q.pending ++ fs ++ gs = q.pending ++ (fs ++ gs) := by
    apply Array.toList_inj.mp
    simp
  exact congrArg (Queue.mk q.policy) hpending

theorem foldl_extend (q : Queue) (results : List (List Finding)) :
    results.foldl extend q = q.extend results.flatten := by
  induction results generalizing q with
  | nil => simp [extend]
  | cons fs results ih => rw [List.foldl_cons, ih, extend_extend, List.flatten_cons]

/-- Collecting findings chunk by chunk, each in a queue of its own, and then the
results in the order of the chunks gives what one queue gives for all findings;
so what a queue has handed out comes back unchanged. -/
theorem flush_chunks (c : Policy) :
    (∀ chunks : List (List Finding),
      (chunks.foldl (fun q chunk => q.extend ((new c).extend chunk).flush.1) (new c)).flush.1 =
        ((new c).extend chunks.flatten).flush.1) ∧
    ∀ fs : List Finding, ((new c).extend ((new c).extend fs).flush.1).flush.1 =
      ((new c).extend fs).flush.1 := by
  constructor
  · intro chunks
    simp only [flush_extend_new]
    rw [← List.foldl_map, foldl_extend, flush_extend_new, ← List.flatMap_def]
    exact arrange_chunks c [] chunks
  · intro fs
    simp only [flush_extend_new]
    simpa using arrange_middle c [] fs []

end AssertionLint.Queue
