import AssertionLint.Proofs.TypeOutline

/-!
# What the text of a type tells

The text of a type shows it up to what stands behind declared types and type
parameters. Types have no closing mark, so the argument is about a type with anything
behind it that can follow a type: the first characters tell the kind of the type, and
each part ends where its text stops looking like a type.
-/

namespace AssertionLint.Ty

open Text (behind ends)

/-! ## Reading types -/

/-- The text of a type can be told from what follows it, and so can its outline. -/
def Reads (t : Ty) : Prop :=
  ∀ u : Ty, u.WellNamed → Text.ToldApart (ends · = true) chars outline t u

theorem kind_eq {t u : Ty} (ht : t.WellNamed) (hu : u.WellNamed) {r r' : List Char}
    (hr : ends r = true) (hr' : ends r' = true) (h : t.chars ++ r = u.chars ++ r') :
    t.kind = u.kind := by
  rw [← kindOf_chars ht hr, h, kindOf_chars hu hr']

theorem reads_pointer {t : Ty} (ht : (pointer t).WellNamed) (ih : t.Reads) :
    (pointer t).Reads := by
  intro u hu r r' hr hr' h
  have hk := kind_eq ht hu hr hr' h
  cases hu with
  | pointer hu =>
    rw [chars_pointer, chars_pointer] at h
    obtain ⟨hout, hrest⟩ := ih _ hu r r' hr hr' (List.cons.inj h).2
    exact ⟨congrArg Outline.pointer hout, hrest⟩
  | _ => cases hk

theorem reads_slice {t : Ty} (ht : (slice t).WellNamed) (ih : t.Reads) : (slice t).Reads := by
  intro u hu r r' hr hr' h
  have hk := kind_eq ht hu hr hr' h
  cases hu with
  | slice hu =>
    rw [chars_slice, chars_slice] at h
    obtain ⟨hout, hrest⟩ := ih _ hu r r' hr hr' (List.cons.inj (List.cons.inj h).2).2
    exact ⟨congrArg Outline.slice hout, hrest⟩
  | _ => cases hk

theorem reads_array {s : UInt64} {t : Ty} (ht : (array s t).WellNamed) (ih : t.Reads) :
    (array s t).Reads := by
  intro u hu r r' hr hr' h
  have hk := kind_eq ht hu hr hr' h
  cases hu with
  | array hu =>
    simp only [chars_array, List.cons_append, List.append_assoc] at h
    obtain ⟨hsize, h⟩ := Text.append_cons_inj (Text.notMem_decimal rfl _)
      (Text.notMem_decimal rfl _) (List.cons.inj h).2
    obtain ⟨hout, hrest⟩ := ih _ hu r r' hr hr' h
    rw [UInt64.toNat_inj.mp (Text.decimal_inj hsize)]
    exact ⟨congrArg (Outline.array _) hout, hrest⟩
  | _ => cases hk

theorem reads_map {k v : Ty} (ht : (map k v).WellNamed) (ihk : k.Reads) (ihv : v.Reads) :
    (map k v).Reads := by
  intro u hu r r' hr hr' h
  have hk := kind_eq ht hu hr hr' h
  cases hu with
  | map huk huv =>
    simp only [chars_map, List.append_assoc, List.append_cancel_left_eq, List.cons_append] at h
    obtain ⟨hkey, h⟩ := ihk _ huk _ _ rfl rfl h
    obtain ⟨hvalue, hrest⟩ := ihv _ huv r r' hr hr' (List.cons.inj h).2
    exact ⟨congrArg₂ Outline.map hkey hvalue, hrest⟩
  | _ => cases hk

/-! ### Names -/

theorem outline_eq_of_chars {t u : Ty} (ht : t.WellNamed) (hu : u.WellNamed)
    (htk : t.kind = .name) (huk : u.kind = .name) (h : t.chars = u.chars) :
    t.outline = u.outline := by
  have h : t.text = u.text := String.toList_inj.mp h
  cases ht with
  | @basic k =>
    cases hu with
    | @basic k' => rw [Predeclared.name_injective h]
    | named hn | param hn => exact absurd h (hn.notPredeclared k)
    | _ => cases huk
  | named hn | param hn =>
    cases hu with
    | @basic k' => exact absurd h.symm (hn.notPredeclared k')
    | named _ | param _ => exact congrArg Outline.atom h
    | _ => cases huk
  | _ => cases htk

theorem reads_name {t : Ty} (ht : t.WellNamed) (htk : t.kind = .name) : t.Reads := by
  intro u hu r r' hr hr' h
  have huk : u.kind = .name := htk ▸ (kind_eq ht hu hr hr' h).symm
  obtain ⟨hchars, hrest⟩ := Text.unbroken_append_inj (isName_chars ht htk).unbroken
    (isName_chars hu huk).unbroken hr hr' h
  exact ⟨outline_eq_of_chars ht hu htk huk hchars, hrest⟩

/-! ### Lists -/

theorem toldApart_field {f g : String × Ty} (hf : Identifier f.1) (hg : Identifier g.1)
    (hgt : g.2.WellNamed) (ih : f.2.Reads) :
    Text.ToldApart (ends · = true) fieldChars fieldOutline f g := by
  intro r r' hr hr' h
  simp only [fieldChars, List.append_assoc, List.cons_append] at h
  obtain ⟨hname, h⟩ := Text.append_cons_inj (hf.notMem rfl) (hg.notMem rfl) h
  obtain ⟨hout, hrest⟩ := ih g.2 hgt r r' hr hr' h
  rw [fieldOutline, fieldOutline, String.toList_inj.mp hname, hout]
  exact ⟨rfl, hrest⟩

theorem toldApart_method {m m' : String} (hm : Identifier m) (hm' : Identifier m') :
    Text.ToldApart (ends · = true) methodChars id m m' := by
  intro r r' hr hr' h
  simp only [methodChars, List.append_assoc, List.cons_append] at h
  obtain ⟨hname, h⟩ := Text.append_cons_inj (hm.notMem rfl) (hm'.notMem rfl) h
  exact ⟨String.toList_inj.mp hname, (List.cons.inj h).2⟩

theorem reads_struct {fs : List (String × Ty)} (ht : (struct fs).WellNamed)
    (ih : ∀ f ∈ fs, f.2.Reads) : (struct fs).Reads := by
  intro u hu r r' hr hr' h
  have hk := kind_eq ht hu hr hr' h
  cases ht with
  | struct hfn =>
  cases hu with
  | @struct gs hgn hgt =>
    simp only [chars_struct, List.append_assoc, List.append_cancel_left_eq] at h
    obtain ⟨hfields, h⟩ := Text.intercalate_inj (E := (ends · = true))
      (fun f hf g hg => toldApart_field (hfn f hf) (hgn g hg) (hgt g hg) (ih f hf))
      (fun _ => rfl) rfl rfl (by simp) (by simp)
      (fun g hg => (hgn g hg).isName.not_isPrefix rfl _ _)
      (fun f hf => (hfn f hf).isName.not_isPrefix rfl _ _) h
    rw [outline_struct, outline_struct, hfields]
    exact ⟨rfl, (List.cons.inj h).2⟩
  | _ => cases hk

theorem methods_inj {ms ns : List String} (hms : ∀ m ∈ ms, Identifier m)
    (hns : ∀ n ∈ ns, Identifier n) {r r' : List Char}
    (h : "; ".toList.intercalate (ms.map methodChars) ++ '\x7d' :: r =
      "; ".toList.intercalate (ns.map methodChars) ++ '\x7d' :: r') : ms = ns ∧ r = r' := by
  obtain ⟨hnames, h⟩ := Text.intercalate_inj
    (fun m hm n hn => toldApart_method (hms m hm) (hns n hn)) (fun _ => rfl) rfl rfl
    (by simp) (by simp) (fun n hn => (hns n hn).isName.not_isPrefix rfl _ _)
    (fun m hm => (hms m hm).isName.not_isPrefix rfl _ _) h
  rw [List.map_id, List.map_id] at hnames
  exact ⟨hnames, (List.cons.inj h).2⟩

theorem behindTerms_inj {ms ns : List String} (hms : ∀ m ∈ ms, Identifier m)
    (hns : ∀ n ∈ ns, Identifier n) {r r' : List Char}
    (h : behindTerms ms ++ r = behindTerms ns ++ r') : ms = ns ∧ r = r' := by
  simp only [behindTerms, List.append_assoc] at h
  obtain ⟨hnames, h⟩ := Text.behind_inj
    (fun m hm n hn => toldApart_method (hms m hm) (hns n hn)) (fun _ => rfl) rfl rfl
    (by simp) (by simp) h
  rw [List.map_id, List.map_id] at hnames
  exact ⟨hnames, (List.cons.inj h).2⟩

/-- Without terms an interface does not begin with a type: a method has parentheses
behind its name. -/
theorem methods_ne_terms {ms ns : List String} {u : Ty} {us : List Ty}
    (hms : ∀ m ∈ ms, Identifier m) (hu : u.WellNamed) (r r' : List Char) :
    "; ".toList.intercalate (ms.map methodChars) ++ '\x7d' :: r ≠
      " | ".toList.intercalate ((u :: us).map chars) ++ (behindTerms ns ++ r') := by
  intro h
  rw [List.map_cons, Text.intercalate_cons, List.append_assoc] at h
  cases ms with
  | nil => exact not_isPrefix_chars hu rfl r ⟨_, h.symm⟩
  | cons m ms =>
    -- The name of the first method would be read as a type of that name.
    have hm : (named m default).WellNamed := .named (hms m List.mem_cons_self)
    have hends : ends (behind " | ".toList (us.map chars) ++ (behindTerms ns ++ r')) = true :=
      Text.holds_behind (E := (ends · = true)) (fun _ => rfl) _ (ends_behindTerms ns r')
    rw [List.map_cons, Text.intercalate_cons, methodChars] at h
    simp only [List.append_assoc] at h
    obtain ⟨-, hrest⟩ := reads_name hm rfl u hu _ _ rfl hends h
    cases us with
    | nil =>
      obtain ⟨c, cs, hns, hc⟩ := exists_behindTerms ns
      rw [hns] at hrest
      rcases hc with rfl | rfl <;> cases hrest
    | cons v vs => cases hrest

theorem reads_interface {ms : List String} {ts : List Ty} (ht : (interface ms ts).WellNamed)
    (ih : ∀ t ∈ ts, t.Reads) : (interface ms ts).Reads := by
  intro u hu r r' hr hr' h
  have hk := kind_eq ht hu hr hr' h
  cases ht with
  | interface hms hts =>
  cases hu with
  | @interface ns us hns hus =>
    cases ts with
    | nil =>
      cases us with
      | nil =>
        simp only [chars_interface_nil, List.append_assoc, List.append_cancel_left_eq] at h
        obtain ⟨rfl, hrest⟩ := methods_inj hms hns h
        exact ⟨rfl, hrest⟩
      | cons v vs =>
        simp only [chars_interface_nil, chars_interface_cons, List.append_assoc,
          List.append_cancel_left_eq] at h
        exact absurd h (methods_ne_terms hms (hus v List.mem_cons_self) r r')
    | cons t ts =>
      cases us with
      | nil =>
        simp only [chars_interface_nil, chars_interface_cons, List.append_assoc,
          List.append_cancel_left_eq] at h
        exact absurd h.symm (methods_ne_terms hns (hts t List.mem_cons_self) r' r)
      | cons v vs =>
        simp only [chars_interface_cons, List.append_assoc, List.append_cancel_left_eq] at h
        obtain ⟨hterms, h⟩ := Text.intercalate_inj (fun a ha b hb => ih a ha b (hus b hb))
          (fun _ => rfl) (ends_behindTerms ms r) (ends_behindTerms ns r')
          (not_bar_isPrefix_behindTerms ms r) (not_bar_isPrefix_behindTerms ns r')
          (fun b hb => not_isPrefix_behindTerms (hus b hb) ms r)
          (fun a ha => not_isPrefix_behindTerms (hts a ha) ns r') h
        obtain ⟨rfl, hrest⟩ := behindTerms_inj hms hns h
        rw [outline_interface, outline_interface, hterms]
        exact ⟨rfl, hrest⟩
  | _ => cases hk

/-- Types in parentheses, as parameters and several results are. -/
theorem parenthesized_inj {ts us : List Ty} (hts : ∀ t ∈ ts, t.WellNamed)
    (hus : ∀ u ∈ us, u.WellNamed) (ih : ∀ t ∈ ts, t.Reads) {r r' : List Char}
    (h : ", ".toList.intercalate (ts.map chars) ++ ')' :: r =
      ", ".toList.intercalate (us.map chars) ++ ')' :: r') :
    ts.map outline = us.map outline ∧ r = r' := by
  obtain ⟨hout, h⟩ := Text.intercalate_inj (fun a ha b hb => ih a ha b (hus b hb))
    (fun _ => rfl) rfl rfl (by simp) (by simp)
    (fun b hb => not_isPrefix_chars (hus b hb) rfl _)
    (fun a ha => not_isPrefix_chars (hts a ha) rfl _) h
  exact ⟨hout, (List.cons.inj h).2⟩

/-- The results are read after their number, which the next characters show. -/
theorem resultChars_inj {rs us : List Ty} (hrs : ∀ t ∈ rs, t.WellNamed)
    (hus : ∀ u ∈ us, u.WellNamed) (ih : ∀ t ∈ rs, t.Reads) {r r' : List Char}
    (hr : ends r = true) (hr' : ends r' = true)
    (h : resultChars rs ++ r = resultChars us ++ r') :
    rs.map outline = us.map outline ∧ r = r' := by
  have hcount : min rs.length 2 = min us.length 2 := by
    rw [← resultCount_append hrs hr, h, resultCount_append hus hr']
  rcases rs with _ | ⟨t, _ | ⟨t', ts⟩⟩
  · obtain rfl : us = [] := by
      apply List.length_eq_zero_iff.mp
      rw [List.length_nil] at hcount
      omega
    exact ⟨rfl, h⟩
  · obtain ⟨u, rfl⟩ : ∃ u, us = [u] := by
      apply List.length_eq_one_iff.mp
      rw [List.length_singleton] at hcount
      omega
    obtain ⟨hout, hrest⟩ := ih t List.mem_cons_self u (hus u List.mem_cons_self) r r' hr hr'
      (List.cons.inj h).2
    rw [List.map_singleton, List.map_singleton, hout]
    exact ⟨rfl, hrest⟩
  · have hlength : 2 ≤ us.length := by
      rw [List.length_cons, List.length_cons] at hcount
      omega
    rw [resultChars_of_two_le (by simp), resultChars_of_two_le hlength] at h
    simp only [List.cons_append, List.append_assoc] at h
    exact parenthesized_inj hrs hus ih (List.cons.inj (List.cons.inj h).2).2

theorem reads_func {ps rs : List Ty} (ht : (func ps rs).WellNamed) (ihp : ∀ p ∈ ps, p.Reads)
    (ihr : ∀ t ∈ rs, t.Reads) : (func ps rs).Reads := by
  intro u hu r r' hr hr' h
  have hk := kind_eq ht hu hr hr' h
  cases ht with
  | func hps hrs =>
  cases hu with
  | @func qs us hqs hus =>
    simp only [chars_func, List.append_assoc, List.append_cancel_left_eq, List.cons_append] at h
    obtain ⟨hparams, h⟩ := parenthesized_inj hps hqs ihp h
    obtain ⟨hresults, hrest⟩ := resultChars_inj hrs hus ihr hr hr' h
    rw [outline_func, outline_func, hparams, hresults]
    exact ⟨rfl, hrest⟩
  | _ => cases hk

/-! ## Whole types -/

theorem WellNamed.reads {t : Ty} (ht : t.WellNamed) : t.Reads := by
  induction ht with
  | basic => exact reads_name .basic rfl
  | named hn => exact reads_name (.named hn) rfl
  | param hn => exact reads_name (.param hn) rfl
  | pointer ht ih => exact reads_pointer (.pointer ht) ih
  | slice ht ih => exact reads_slice (.slice ht) ih
  | array ht ih => exact reads_array (.array ht) ih
  | map hk hv ihk ihv => exact reads_map (.map hk hv) ihk ihv
  | struct hn ht ih => exact reads_struct (.struct hn ht) ih
  | interface hm ht ih => exact reads_interface (.interface hm ht) ih
  | func hp hr ihp ihr => exact reads_func (.func hp hr) ihp ihr

/-- Types whose names are identifiers are shown alike only if they are alike up to what
stands behind declared types and type parameters. -/
theorem outline_eq_of_text_eq (t u : Ty) (ht : t.WellNamed) (hu : u.WellNamed)
    (h : t.text = u.text) : t.outline = u.outline := by
  have hchars : t.chars ++ [] = u.chars ++ [] := by rw [chars, chars, h]
  exact (ht.reads u hu [] [] rfl rfl hchars).1

/-- A signature whose text has every separator, over the type of its elements. -/
def signature (elem : Ty) : Ty :=
  func [slice elem, func [elem, elem] [basic .untypedBool],
      interface ["Len"] [pointer elem, basic .untypedInt]]
    [map (array 2 elem) (struct [("first", elem)]), func [] []]

theorem signature_wellNamed {elem : Ty} (h : elem.WellNamed) : (signature elem).WellNamed := by
  have hlen : Identifier "Len" := by decide
  have hfirst : Identifier "first" := by decide
  have hless : (func [elem, elem] [basic .untypedBool]).WellNamed :=
    .func (by simp [h]) (by simp [WellNamed.basic])
  have hunion : (interface ["Len"] [pointer elem, basic .untypedInt]).WellNamed :=
    .interface (by simp [hlen]) (by simp [WellNamed.basic, WellNamed.pointer h])
  have hmap : (map (array 2 elem) (struct [("first", elem)])).WellNamed :=
    .map (.array h) (.struct (by simp [hfirst]) (by simp [h]))
  have hunit : (func [] []).WellNamed := .func (by simp) (by simp)
  exact .func (by simp [WellNamed.slice h, hless, hunion]) (by simp [hmap, hunit])

theorem outline_eq_of_text_eq_signature :
    (signature (named "E" (basic .float64))).text =
        (signature (param "E" (interface [] [basic .int, basic .string]))).text ∧
      (signature (named "E" (basic .float64))).outline =
        (signature (param "E" (interface [] [basic .int, basic .string]))).outline := by
  have helem : Identifier "E" := by decide
  exact ⟨rfl, outline_eq_of_text_eq _ _ (signature_wellNamed (.named helem))
    (signature_wellNamed (.param helem)) rfl⟩

end AssertionLint.Ty
