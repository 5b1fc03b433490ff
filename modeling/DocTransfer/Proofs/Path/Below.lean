import DocTransfer.Proofs.Path.Join
import Mathlib.Data.List.DropRight

/-! # Paths of names alone

What lies below a folder is reached from it by names. Such a path may be cut, at the front or at the
end, and joined to another one: its wording changes by the pieces that stand for nothing, its names
do not. -/

namespace DocTransfer

/-! ## Pieces of a text -/

namespace Text

theorem forall_not_of_mem_splitWhere {α : Type} {p : α → Bool} {xs piece : List α}
    (h : piece ∈ splitWhere p xs) : ∀ x ∈ piece, p x = false := by
  induction xs generalizing piece with
  | nil =>
      rw [splitWhere, List.mem_singleton] at h
      simp [h]
  | cons y xs ih =>
      rw [splitWhere] at h
      by_cases hy : p y = true
      · rw [if_pos hy, List.mem_cons] at h
        rcases h with rfl | h
        · simp
        · exact ih h
      · rw [if_neg hy] at h
        cases hsplit : splitWhere p xs with
        | nil => exact absurd hsplit (splitWhere_ne_nil p xs)
        | cons first others =>
            rw [hsplit] at h ih
            simp only [List.mem_cons] at h
            rcases h with rfl | h
            · intro x hx
              rcases List.mem_cons.mp hx with rfl | hx
              · simpa using hy
              · exact ih List.mem_cons_self x hx
            · exact ih (List.mem_cons_of_mem _ h)

end Text

namespace Path

open Text

theorem no_slash_of_mem_splitWhere {path piece : List Char}
    (h : piece ∈ splitWhere (· == '/') path) : '/' ∉ piece := by
  intro hslash
  simpa using forall_not_of_mem_splitWhere h '/' hslash

theorem splitWhere_joinWith {texts : List (List Char)} (hne : texts ≠ [])
    (h : ∀ t ∈ texts, '/' ∉ t) : splitWhere (· == '/') (joinWith ['/'] texts) = texts := by
  induction texts with
  | nil => exact absurd rfl hne
  | cons t texts ih =>
      rw [List.forall_mem_cons] at h
      cases texts with
      | nil => exact splitWhere_of_no_slash h.1
      | cons u texts =>
          have hjoin : joinWith ['/'] (t :: u :: texts) = t ++ '/' :: joinWith ['/'] (u :: texts) := by
            simp [joinWith]
          rw [hjoin, splitWhere_append_cons (by simp), splitWhere_of_no_slash h.1,
            ih (by simp) h.2, List.singleton_append]

/-! ## Pieces of a path -/

/-- A piece between slashes, told from the component that it stands for. -/
structure IsPiece (q : List Char × Option Component) : Prop where
  no_slash : '/' ∉ q.1
  idle : q.2 = none → component? false q.1 = none
  name : ∀ n, q.2 = some (.name n) → q.1 = n ∧ IsName n

theorem component?_eq_name {first : Bool} {piece n : List Char} (hslash : '/' ∉ piece)
    (h : component? first piece = some (.name n)) : piece = n ∧ IsName n := by
  unfold component? at h
  split at h
  · cases h
  · next hne =>
      split at h
      · split at h <;> cases h
      · next hhere =>
          split at h
          · cases h
          · next hup =>
              cases h
              exact ⟨rfl, hne, hslash, hhere, hup⟩

theorem component?_false_of_eq_none {first : Bool} {piece : List Char}
    (h : component? first piece = none) : component? false piece = none := by
  unfold component? at h ⊢
  split at h
  · simp [*]
  · split at h
    · simp [*]
    · split at h <;> cases h

theorem isPiece_component? (first : Bool) {piece : List Char} (h : '/' ∉ piece) :
    IsPiece (piece, component? first piece) where
  no_slash := h
  idle := component?_false_of_eq_none
  name _ := component?_eq_name h

theorem isPiece_of_mem_pieces {path : List Char} {q : List Char × Option Component}
    (h : q ∈ pieces path) : IsPiece q := by
  by_cases hrelative : Relative path
  · rw [pieces_of_relative hrelative] at h
    cases hsplit : splitWhere (· == '/') path with
    | nil => exact absurd hsplit (splitWhere_ne_nil _ _)
    | cons p ps =>
        have hslash (t : List Char) (ht : t ∈ p :: ps) : '/' ∉ t :=
          no_slash_of_mem_splitWhere (hsplit ▸ ht)
        rw [hsplit, tagged, List.mem_cons] at h
        rcases h with rfl | h
        · exact isPiece_component? true (hslash p List.mem_cons_self)
        · obtain ⟨t, ht, rfl⟩ := List.mem_map.mp h
          exact isPiece_component? false (hslash t (List.mem_cons_of_mem p ht))
  · cases path with
    | nil => exact absurd (by simp [Relative]) hrelative
    | cons c path =>
        have hc : c = '/' := by simpa [Relative] using hrelative
        subst hc
        rw [pieces, List.mem_cons] at h
        rcases h with rfl | h
        · exact ⟨by simp, by simp, by simp⟩
        · obtain ⟨t, ht, rfl⟩ := List.mem_map.mp h
          exact isPiece_component? false (no_slash_of_mem_splitWhere ht)

theorem isName_of_mem_components {path n : List Char} (h : .name n ∈ components path) :
    IsName n := by
  obtain ⟨q, hq, hn⟩ := List.mem_filterMap.mp h
  exact ((isPiece_of_mem_pieces hq).name n hn).2

/-! ## Names alone -/

/-- Pieces that stand for names alone, among others that stand for nothing. -/
structure Named (qs : List (List Char × Option Component)) (names : List (List Char)) : Prop where
  pieces : ∀ q ∈ qs, IsPiece q
  names : qs.filterMap (·.2) = names.map .name

/-- A path that names lead along, from wherever one stands. -/
structure Plain (path : List Char) (names : List (List Char)) : Prop where
  relative : Relative path
  components : components path = names.map .name

theorem Plain.named {path : List Char} {names : List (List Char)} (h : Plain path names) :
    Named (Path.pieces path) names :=
  ⟨fun _ => isPiece_of_mem_pieces, h.components⟩

/-- Away from the start of a path the pieces mean the same. -/
theorem Named.components {qs : List (List Char × Option Component)} {names : List (List Char)}
    (h : Named qs names) : (qs.map (·.1)).filterMap (component? false) = names.map .name := by
  induction qs generalizing names with
  | nil => exact h.names
  | cons q qs ih =>
      have hq := h.pieces q List.mem_cons_self
      have hqs (q' : _) (hq' : q' ∈ qs) : IsPiece q' := h.pieces q' (List.mem_cons_of_mem q hq')
      have hnames := h.names
      rw [List.filterMap_cons] at hnames
      cases hcomponent : q.2 with
      | none =>
          rw [hcomponent] at hnames
          rw [List.map_cons, List.filterMap_cons, hq.idle hcomponent]
          exact ih ⟨hqs, hnames⟩
      | some c =>
          rw [hcomponent] at hnames
          cases names with
          | nil => cases hnames
          | cons n names =>
              obtain ⟨rfl, htail⟩ := List.cons.inj hnames
              obtain ⟨htext, hname⟩ := hq.name n hcomponent
              rw [List.map_cons, List.filterMap_cons, htext, hname.component?, ih ⟨hqs, htail⟩]
              rfl

theorem IsName.plain {name : List Char} (h : IsName name) : Plain name [name] := by
  have hempty : Relative [] := by simp [Relative]
  have hjoin := Path.components_join hempty h
  rw [join, if_neg h.relative, if_pos (.inl rfl)] at hjoin
  exact ⟨h.relative, hjoin⟩

theorem IsName.relative_joinWith {name : List Char} (h : IsName name) (texts : List (List Char)) :
    Relative (joinWith ['/'] (name :: texts)) := by
  cases texts with
  | nil => exact h.relative
  | cons t texts =>
      obtain ⟨c, cs, rfl⟩ := List.exists_cons_of_ne_nil h.ne_nil
      exact h.relative

/-- Pieces written out again, if the first one stands for something. -/
theorem Named.plain_unpieces {qs : List (List Char × Option Component)}
    {names : List (List Char)} (h : Named qs names) (hhead : ∀ q ∈ qs.head?, q.2 ≠ none) :
    Plain (unpieces qs) names := by
  cases qs with
  | nil => exact ⟨by simp [unpieces, joinWith, Relative], h.names⟩
  | cons q qs =>
      have hslash : ∀ t ∈ (q :: qs).map (·.1), '/' ∉ t := by
        rw [List.forall_mem_map]
        exact fun q hq => (h.pieces q hq).no_slash
      obtain ⟨c, hc⟩ := Option.ne_none_iff_exists'.mp (hhead q rfl)
      have hnames := h.names
      rw [List.filterMap_cons, hc] at hnames
      cases names with
      | nil => cases hnames
      | cons n names =>
          obtain ⟨rfl, -⟩ := List.cons.inj hnames
          obtain ⟨htext, hname⟩ := (h.pieces q List.mem_cons_self).name n hc
          have htexts : unpieces (q :: qs) = joinWith ['/'] ((q :: qs).map (·.1)) := by
            unfold unpieces
            split
            · next heq =>
                cases heq
                cases hc
            · rfl
          have hrelative : Relative (unpieces (q :: qs)) := by
            rw [htexts, List.map_cons, htext]
            exact hname.relative_joinWith _
          refine ⟨hrelative, ?_⟩
          rw [Path.components, pieces_of_relative hrelative, htexts,
            splitWhere_joinWith (by simp) hslash, ← h.components, List.map_cons, tagged,
            List.filterMap_cons, List.filterMap_cons, htext, hname.component?, hname.component?]
          simp [List.filterMap_map, Function.comp_def]

/-! ## Cutting -/

/-- Pieces that stand for nothing may go at either end. -/
theorem Named.strip (front back : List (List Char × Option Component))
    {qs : List (List Char × Option Component)} {names : List (List Char)}
    (h : Named (front ++ qs ++ back) names) (hfront : ∀ q ∈ front, q.2 = none)
    (hback : ∀ q ∈ back, q.2 = none) : Named qs names := by
  constructor
  · intro q hq
    exact h.pieces q (by simp [hq])
  · have hnames := h.names
    rwa [List.filterMap_append, List.filterMap_append, List.filterMap_eq_nil_iff.mpr hfront,
      List.filterMap_eq_nil_iff.mpr hback, List.nil_append, List.append_nil] at hnames

theorem Named.dropWhile {qs : List (List Char × Option Component)} {names : List (List Char)}
    (h : Named qs names) : Named (qs.dropWhile (·.2.isNone)) names := by
  rw [← List.takeWhile_append_dropWhile (p := (·.2.isNone)) (l := qs)] at h
  refine Named.strip _ [] (by rwa [List.append_nil]) ?_ (by simp)
  intro q hq
  simpa using List.mem_takeWhile_imp hq

theorem Named.dropIdleEnd {qs : List (List Char × Option Component)} {names : List (List Char)}
    (h : Named qs names) : Named (dropIdleEnd qs) names := by
  rw [← List.rdropWhile_append_rtakeWhile (p := (·.2.isNone)) (l := qs)] at h
  refine Named.strip [] _ h (by simp) ?_
  intro q hq
  simpa using List.mem_rtakeWhile_imp hq

/-- What is cut off at the end leaves the first piece as it is. -/
theorem head?_dropIdleEnd {qs : List (List Char × Option Component)}
    {q : List Char × Option Component} (h : q ∈ (dropIdleEnd qs).head?) : q ∈ qs.head? := by
  obtain ⟨back, hback⟩ : Path.dropIdleEnd qs <+: qs := List.rdropWhile_prefix _ _
  rw [← hback, List.head?_append]
  simp [Option.mem_def.mp h]

theorem dropComponents_eq_some {cs rest : List Component}
    {qs : List (List Char × Option Component)} (h : qs.filterMap (·.2) = cs ++ rest) :
    ∃ front back, qs = front ++ back ∧ dropComponents cs qs = some back ∧
      back.filterMap (·.2) = rest := by
  induction qs generalizing cs with
  | nil =>
      cases cs with
      | nil => exact ⟨[], [], rfl, rfl, h⟩
      | cons c cs => cases h
  | cons q qs ih =>
      cases cs with
      | nil => exact ⟨[], q :: qs, rfl, rfl, h⟩
      | cons c cs =>
          obtain ⟨text, component⟩ := q
          cases component with
          | none =>
              obtain ⟨front, back, rfl, hdrop, hrest⟩ := @ih (c :: cs) h
              exact ⟨(text, none) :: front, back, rfl, hdrop, hrest⟩
          | some d =>
              obtain ⟨rfl, htail⟩ := List.cons.inj h
              obtain ⟨front, back, rfl, hdrop, hrest⟩ := ih htail
              exact ⟨(text, some d) :: front, back, rfl, by rw [dropComponents, if_pos rfl, hdrop],
                hrest⟩

/-- What lies below a folder by names is reached from it by these names. -/
theorem plain_below? {base path : List Char} {names : List (List Char)}
    (h : components path = components base ++ names.map .name) :
    ∃ rel, below? base path = some rel ∧ Plain rel names := by
  obtain ⟨front, back, hsplit, hdrop, hnames⟩ := dropComponents_eq_some h
  have hnamed : Named back names := by
    refine ⟨?_, hnames⟩
    intro q hq
    have hpiece : q ∈ pieces path := by
      rw [hsplit]
      exact List.mem_append_right front hq
    exact isPiece_of_mem_pieces hpiece
  refine ⟨_, by rw [below?, hdrop, Option.map_some], hnamed.dropWhile.dropIdleEnd.plain_unpieces ?_⟩
  intro q hq hidle
  have hstop := List.head?_dropWhile_not (·.2.isNone) back
  rw [head?_dropIdleEnd hq] at hstop
  simp [hidle] at hstop

theorem Plain.fileName? {path n : List Char} {names : List (List Char)}
    (h : Plain path (names ++ [n])) : Path.fileName? path = some n := by
  simp [Path.fileName?, h.components]

theorem component?_true_ne_none {piece : List Char} (h : piece ≠ []) :
    component? true piece ≠ none := by
  unfold component?
  rw [if_neg h]
  split
  · simp
  · split <;> simp

theorem Plain.head?_pieces {path : List Char} {names : List (List Char)} (h : Plain path names)
    (hne : names ≠ []) {q : List Char × Option Component} (hq : q ∈ (pieces path).head?) :
    q.2 ≠ none := by
  cases path with
  | nil =>
      have hnone : [] = names.map Component.name := h.components
      exact absurd (List.map_eq_nil_iff.mp hnone.symm) hne
  | cons c cs =>
      have hslash : ¬ (c == '/') = true := by simpa [Relative] using h.relative
      rw [pieces_of_relative h.relative, splitWhere, if_neg hslash] at hq
      split at hq
      · cases hq
        exact component?_true_ne_none (List.cons_ne_nil _ _)
      · cases hq
        exact component?_true_ne_none (List.cons_ne_nil _ _)

theorem ne_none_of_dropIdleEnd {qs front : List (List Char × Option Component)}
    {q : List Char × Option Component} (h : dropIdleEnd qs = front ++ [q]) : q.2 ≠ none := by
  have hreverse : qs.reverse.dropWhile (·.2.isNone) = q :: front.reverse := by
    simpa [dropIdleEnd] using congrArg List.reverse h
  have hstop := List.head?_dropWhile_not (·.2.isNone) qs.reverse
  rw [hreverse] at hstop
  intro hnone
  simp [hnone] at hstop

/-- The folder of a path by names is reached by all names but the last. -/
theorem Plain.parent? {path n : List Char} {names : List (List Char)}
    (h : Plain path (names ++ [n])) :
    ∃ folder, Path.parent? path = some folder ∧ Plain folder names := by
  have hnamed := h.named.dropIdleEnd
  rcases List.eq_nil_or_concat' (dropIdleEnd (pieces path)) with hnil | ⟨qs, q, hconcat⟩
  · have hnames := hnamed.names
    rw [hnil] at hnames
    simp at hnames
  · rw [hconcat] at hnamed
    obtain ⟨c, hc⟩ := Option.ne_none_iff_exists'.mp (ne_none_of_dropIdleEnd hconcat)
    have hnames : qs.filterMap (·.2) ++ [c] = names.map .name ++ [Component.name n] := by
      simpa [hc] using hnamed.names
    obtain ⟨hfront, hlast⟩ := List.append_inj' hnames rfl
    cases hlast
    have hfolder : Named qs names := ⟨fun q' hq' => hnamed.pieces q' (by simp [hq']), hfront⟩
    have hparent : Path.parent? path = some (unpieces (dropIdleEnd qs)) := by
      obtain ⟨text, component⟩ := q
      cases hc
      simp [Path.parent?, hconcat]
    refine ⟨_, hparent, hfolder.dropIdleEnd.plain_unpieces ?_⟩
    intro q' hq'
    have hfirst : q' ∈ (pieces path).head? := by
      apply head?_dropIdleEnd
      rw [hconcat, List.head?_append, Option.mem_def.mp (head?_dropIdleEnd hq')]
      rfl
    exact h.head?_pieces (by simp) hfirst

/-! ## Joining -/

theorem components_append_slash {base : List Char} (hne : base ≠ []) (path : List Char) :
    components (base ++ '/' :: path) =
      components base ++ (splitWhere (· == '/') path).filterMap (component? false) := by
  rw [components, pieces_append_slash hne, List.filterMap_append, List.filterMap_map]
  rfl

theorem components_slash (path : List Char) :
    components ('/' :: path) =
      .root :: (splitWhere (· == '/') path).filterMap (component? false) := by
  rw [components, pieces, List.filterMap_cons, List.filterMap_map]
  rfl

/-- Names joined to a path come after its components, whatever these are. -/
theorem Plain.components_join {path : List Char} {names : List (List Char)} (h : Plain path names)
    (base : List Char) :
    Path.components (join base path) = Path.components base ++ names.map .name := by
  have hafter : (splitWhere (· == '/') path).filterMap (component? false) = names.map .name := by
    have htexts : (pieces path).map (·.1) = splitWhere (· == '/') path := by
      rw [pieces_of_relative h.relative]
      cases splitWhere (· == '/') path <;> simp [tagged, Function.comp_def]
    rw [← htexts, h.named.components]
  rw [join, if_neg h.relative]
  by_cases hempty : base = []
  · subst hempty
    exact h.components
  by_cases hslash : base.getLast? = some '/'
  · obtain ⟨front, rfl⟩ := List.getLast?_eq_some_iff.mp hslash
    rw [if_pos (.inr hslash), List.append_assoc, List.singleton_append]
    by_cases hfront : front = []
    · subst hfront
      rw [List.nil_append, List.nil_append, components_slash, hafter]
      rfl
    · rw [components_append_slash hfront, components_append_slash hfront, hafter]
      simp [splitWhere, component?]
  · rw [if_neg (by simp [hempty, hslash]), components_append_slash hempty, hafter]

end Path

end DocTransfer
