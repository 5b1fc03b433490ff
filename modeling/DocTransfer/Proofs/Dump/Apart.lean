import DocTransfer.Proofs.Batch.Run
import DocTransfer.Proofs.Dump.Paths
import DocTransfer.Proofs.Dump.Recorded
import DocTransfer.Proofs.EditLoop.Refinement
import Mathlib.Data.List.Nodup
import Mathlib.Data.List.ProdSigma

/-! # Dumps stay apart

A request has a label of its own among the requests of a file, and the path of a dump tells the file
and the label. So no dump of a run takes the place of another. -/

namespace DocTransfer.Transfer

open Model

variable {σ φ π α β : Type}

/-! ## The dumps that a file can have -/

/-- The dumps of a request. -/
def Topic.slips (t : Topic) : List Slip :=
  [⟨t, false⟩, ⟨t, true⟩]

/-- The dumps of passes with the given numbers. -/
def passSlips (first count : Nat) : List Slip :=
  (List.range' first count).flatMap fun pass =>
    (Topic.documentation pass).slips ++ (Topic.correction pass).slips

/-- All dumps of a file that is worked on to the end. -/
def fileSlips (options : Options) : List Slip :=
  Topic.mapping.slips ++ passSlips 1 (options.maxPasses - 1 + 1)

theorem passSlips_succ (first count : Nat) :
    passSlips first (count + 1) =
      (Topic.documentation first).slips ++
        ((Topic.correction first).slips ++ passSlips (first + 1) count) := by
  rw [passSlips, List.range'_succ, List.flatMap_cons, List.append_assoc]
  rfl

theorem nodup_fileSlips (options : Options) : (fileSlips options).Nodup := by
  have hpasses (first count : Nat) : (passSlips first count).Nodup := by
    rw [passSlips, List.nodup_flatMap]
    constructor
    · intro pass _
      simp [Topic.slips]
    · apply (List.nodup_range' (s := first) (n := count)).imp
      intro pass pass' hne
      simp [Function.onFun, Topic.slips, List.Disjoint, hne]
  rw [fileSlips, List.nodup_append]
  refine ⟨by simp [Topic.slips], hpasses _ _, ?_⟩
  rintro slip hmapping slip' hpass rfl
  obtain ⟨pass, -, hpass⟩ := List.mem_flatMap.mp hpass
  simp only [Topic.slips, List.mem_cons, List.not_mem_nil, or_false] at hmapping
  rcases hmapping with rfl | rfl
  · simp [Topic.slips] at hpass
  · simp [Topic.slips] at hpass

/-! ## The record of a file -/

/-- The record has grown by dumps of a file, out of a list in its order and each once at most. -/
def Adds (d : Dump) (path : String) (slips : List Slip) (r r' : Recorded φ) : Prop :=
  r.prepared = false →
    r'.prepared = false ∧
      ∃ made : List Slip, made.Sublist slips ∧
        r'.dumps = r.dumps ++ made.map fun slip => d.pathFor path slip.label

section

variable {d : Dump} {path : String} {xs ys : List Slip} {r r' r'' : Recorded φ}

theorem Adds.refl (xs : List Slip) (r : Recorded φ) : Adds d path xs r r :=
  fun hr => ⟨hr, [], List.nil_sublist xs, (List.append_nil _).symm⟩

theorem Adds.trans (h : Adds d path xs r r') (h' : Adds d path ys r' r'') :
    Adds d path (xs ++ ys) r r'' := by
  intro hr
  obtain ⟨hr', made, hmade, hdumps⟩ := h hr
  obtain ⟨hr'', made', hmade', hdumps'⟩ := h' hr'
  refine ⟨hr'', made ++ made', hmade.append hmade', ?_⟩
  rw [hdumps', hdumps, List.append_assoc, List.map_append]

/-- What would come after a failure is left out. -/
theorem Adds.andThen {x : Except Error α × Session σ (Recorded φ)}
    {next : α → Session σ (Recorded φ) → Except Error β × Session σ (Recorded φ)}
    (h : Adds d path xs r x.2.sink)
    (hnext : ∀ a s, x = (.ok a, s) → Adds d path ys s.sink (next a s).2.sink) :
    Adds d path (xs ++ ys) r (andThen x next).2.sink := by
  obtain ⟨result, s⟩ := x
  cases result with
  | error e => exact h.trans (.refl ys _)
  | ok a => exact h.trans (hnext a s rfl)

/-- A last step that only gives the result another form. -/
theorem Adds.andReturn {x : Except Error α × Session σ (Recorded φ)} {f : α → β}
    (h : Adds d path xs r x.2.sink) :
    Adds d path xs r (Transfer.andThen x fun a s => (.ok (f a), s)).2.sink := by
  obtain ⟨result, s⟩ := x
  cases result with
  | error e => exact h
  | ok a => exact h

theorem Adds.unlessConverged {result : Progress × List Edit} {s : Session σ (Recorded φ)}
    {next : Progress → Session σ (Recorded φ) → Except Error Outcome × Session σ (Recorded φ)}
    (h : Adds d path xs s.sink (next result.1 s).2.sink) :
    Adds d path xs s.sink (unlessConverged result s next).2.sink := by
  unfold Transfer.unlessConverged
  split
  · exact .refl xs _
  · exact h

end

section

variable (job : Job σ φ) {d : Dump} (hdump : job.dump = some d) (path : String)

theorem store_adds (text : String) (s : Session σ (Recorded φ)) :
    Adds d path [] s.sink (store (job.recorded.sink path) text s).2.sink := by
  intro hr
  rw [store_eq, sink_store_recorded]
  exact ⟨by simp [hr], [], .refl _, by simp [hr]⟩

theorem absorb_adds (edits : List Edit) (p : Progress) (s : Session σ (Recorded φ)) :
    Adds d path [] s.sink (absorb (job.recorded.sink path) edits p s).2.sink := by
  rw [absorb_eq_andThen]
  split
  · exact .refl [] _
  · exact (store_adds job path _ s).andReturn

/-- A request leaves the number of the pass as it is. -/
theorem passes_of_exchange {topic : Topic} {prompt : String} {p q : Progress} {edits : List Edit}
    {s s' : Session σ (Recorded φ)}
    (h : exchange job.service (job.recorded.sink path) topic.label prompt p s =
      (.ok (q, edits), s')) : q.passes = p.passes := by
  obtain ⟨a, rfl, -, -⟩ := exchange_ok h
  rfl

include hdump

theorem sink_dump_adds (slip : Slip) (text : String) (r : Recorded φ) :
    Adds d path [slip] r ((job.recorded.sink path).dump r slip.label text) := by
  intro _
  have hsink : (job.recorded.sink path).dump r slip.label text =
      d.write job.storage.recorded r path slip.label text := by
    simp only [Job.sink, Job.recorded, hdump]
  rw [hsink, d.write_recorded]
  split
  · exact ⟨rfl, [slip], .refl _, rfl⟩
  · exact ⟨rfl, [], List.nil_sublist _, rfl⟩

theorem ask_adds (topic : Topic) (prompt : String) (s : Session σ (Recorded φ)) :
    Adds d path topic.slips s.sink
      (ask job.service (job.recorded.sink path) topic.label prompt s).2.sink := by
  have hprompt := sink_dump_adds job hdump path ⟨topic, false⟩ prompt s.sink
  unfold ask
  cases job.service.complete s.model prompt false with
  | mk reply model =>
      cases reply with
      | error e => exact hprompt.trans (.refl [⟨topic, true⟩] _)
      | ok answer => exact hprompt.trans (sink_dump_adds job hdump path ⟨topic, true⟩ answer.text _)

theorem exchange_adds (topic : Topic) (prompt : String) (p : Progress)
    (s : Session σ (Recorded φ)) :
    Adds d path topic.slips s.sink
      (exchange job.service (job.recorded.sink path) topic.label prompt p s).2.sink := by
  rw [exchange_eq_andThen, ← List.append_nil topic.slips]
  refine (ask_adds job hdump path topic prompt s).andThen ?_
  intro text s' _
  exact (absorb_adds job path _ _ s').andReturn

/-- One pass: its two requests, and whatever comes after it. -/
theorem passes_adds_step (b : Brief) (left : Nat) (p : Progress) (s : Session σ (Recorded φ))
    {more : List Slip}
    (hnext : ∀ q s', q.passes = p.passes + 1 →
      Adds d path more s'.sink
        (match left with
         | 0 => (.ok { q with ending := .capReached }, s')
         | left + 1 => passes job.service (job.recorded.sink path) b left q s' :
          Except Error Outcome × Session σ (Recorded φ)).2.sink) :
    Adds d path ((Topic.documentation (p.passes + 1)).slips ++
        ((Topic.correction (p.passes + 1)).slips ++ more)) s.sink
      (passes job.service (job.recorded.sink path) b left p s).2.sink := by
  rw [passes_eq_andThen]
  refine (exchange_adds job hdump path (.documentation (p.passes + 1)) _ _ s).andThen ?_
  rintro ⟨q, edits⟩ s' hgenerate
  have hq : q.passes = p.passes + 1 := passes_of_exchange job path hgenerate
  refine Adds.unlessConverged ?_
  rw [← hq]
  refine (exchange_adds job hdump path (.correction q.passes) _ _ s').andThen ?_
  rintro ⟨q', edits'⟩ s'' hcorrect
  have hq' : q'.passes = q.passes := passes_of_exchange job path hcorrect
  refine Adds.unlessConverged ?_
  have hmore := hnext q' s'' (hq'.trans hq)
  cases left with
  | zero => exact hmore
  | succ left => exact hmore

/-- A loop that has some passes behind it goes on with the next number. -/
theorem passes_adds (b : Brief) (left : Nat) (p : Progress) (s : Session σ (Recorded φ)) :
    Adds d path (passSlips (p.passes + 1) (left + 1)) s.sink
      (passes job.service (job.recorded.sink path) b left p s).2.sink := by
  -- The number of the next pass is carried along, so that no label comes twice.
  induction left generalizing p s with
  | zero =>
      rw [passSlips_succ]
      exact passes_adds_step job hdump path b 0 p s fun q s' _ => .refl _ _
  | succ left ih =>
      rw [passSlips_succ]
      refine passes_adds_step job hdump path b (left + 1) p s ?_
      intro q s' hq
      rw [← hq]
      exact ih q s'

theorem mapTypes_adds (strategy : Matching.Strategy) (types : List String)
    (forest : List JavaType) (s : Session σ (Recorded φ)) :
    Adds d path Topic.mapping.slips s.sink
      (mapTypes job.service (job.recorded.sink path) strategy types forest path s).2.sink := by
  cases strategy with
  | heuristic => exact .refl _ _
  | llm =>
      rw [mapTypes_llm]
      exact (ask_adds job hdump path .mapping _ s).andReturn

theorem document_adds (options : Options) (source : String) (types : List String)
    (forest : List JavaType) (s : Session σ (Recorded φ)) :
    Adds d path (fileSlips options) s.sink
      (document job.service (job.recorded.sink path) options source path types forest s).2.sink := by
  rw [document_eq_andThen, fileSlips]
  refine (mapTypes_adds job hdump path _ _ _ s).andThen ?_
  intro relevant s' _
  split
  · exact .refl _ _
  split
  · exact .refl _ _
  · exact (passes_adds job hdump path _ (options.maxPasses - 1) { code := source.toList }
      s').andReturn

theorem transferFile_adds (s : Session σ (Recorded φ)) :
    Adds d path (fileSlips job.options) s.sink (transferFile job.recorded path s).2.sink := by
  unfold transferFile
  split
  · exact .refl _ _
  · rw [transferSource_eq]
    dsimp only
    split
    · exact .refl _ _
    · exact document_adds job hdump path job.options _ _ _ { s with usage := {} }

end

/-! ## The record of a batch -/

theorem afterFiles_adds (job : Job σ φ) {d : Dump} (hdump : job.dump = some d)
    (paths : List String) (s : Session σ (Recorded φ)) (hs : s.sink.prepared = false) :
    ∃ made : List (String × Slip), made.Sublist (paths ×ˢ fileSlips job.options) ∧
      (afterFiles job.recorded paths s).sink.dumps =
        s.sink.dumps ++ made.map fun m => d.pathFor m.1 m.2.label := by
  induction paths generalizing s with
  | nil => exact ⟨[], List.nil_sublist _, (List.append_nil _).symm⟩
  | cons path paths ih =>
      obtain ⟨hafter, made, hmade, hdumps⟩ := transferFile_adds job hdump path s hs
      obtain ⟨more, hmore, hrest⟩ := ih (transferFile job.recorded path s).2 hafter
      refine ⟨made.map (Prod.mk path) ++ more, ?_, ?_⟩
      · rw [List.product_cons]
        exact (hmade.map _).append hmore
      · rw [afterFiles_cons, hrest, hdumps, List.append_assoc, List.map_append, List.map_map]
        rfl

/-- When the files of a batch lie below the root by names and no two of their paths are the same,
no two dumps go to the same path, whatever the model answers and whatever fails. The record that
shows it changes nothing else about the run. -/
theorem dumps_kept_apart (job : Job σ φ) (observer : Observer φ π) (paths : List String)
    (start : π) (s : Session σ φ) {d : Dump} {root : String} (hdump : job.dump = some d)
    (hroot : d.root = some root)
    (hbelow : ∀ path ∈ paths, Dump.LiesBelow root.toList path.toList)
    (hdistinct : (paths.map fun path => Path.components path.toList).Nodup) :
    let run := transferFiles job.recorded observer.recorded paths start s.recorded
    run.plain = transferFiles job observer paths start s ∧
      (run.session.sink.dumps.map fun path => Path.components path.toList).Nodup := by
  refine ⟨transferFiles_recorded job observer paths start s, ?_⟩
  obtain ⟨made, hmade, hdumps⟩ := afterFiles_adds job hdump paths s.recorded rfl
  have hnone : s.recorded.sink.dumps = [] := rfl
  have hsubset := hmade.subset
  rw [transferFiles_eq]
  dsimp only
  rw [hdumps, hnone, List.nil_append, List.map_map]
  -- Each pair of a file and a slip is made once at most, and its path tells both.
  refine List.Nodup.map_on ?_ (hmade.nodup (hdistinct.of_map.product (nodup_fileSlips job.options)))
  rintro ⟨path, slip⟩ hm ⟨path', slip'⟩ hm' hsame
  obtain ⟨hpath, -⟩ := List.mem_product.mp (hsubset hm)
  obtain ⟨hpath', -⟩ := List.mem_product.mp (hsubset hm')
  obtain ⟨hcomponents, rfl⟩ := Dump.pathFor_inj hroot (hbelow path hpath) (hbelow path' hpath') hsame
  rw [List.inj_on_of_nodup_map hdistinct hpath hpath' hcomponents]

/-- Two classes of one name in different folders, and a model that maps the first one, finds nothing
to add to it and gives out. -/
def twoFolders : Session (List String) FileTree where
  model := ["[\"p.A\"]", "[]"]
  sink :=
    .folder [("cs", .folder [("A.cs", .file (.text "class A \x7b\x7d")),
      ("x", .folder [("A.cs", .file (.text "class A \x7b\x7d"))])])]

/-- A transfer to both of them that dumps what it asks and hears. -/
def dumpedJob : Job (List String) FileTree where
  service := scripted
  storage := FileTree.storage
  options := {}
  forest := [.mk "A" "p.A" "p" .cls "/** A. */" [] none [] "p/A.java"]
  dump := some { dir := "debug", root := some "cs" }

theorem dumps_kept_apart_twoFolders :
    dumpedJob.dump = some { dir := "debug", root := some "cs" } ∧
    (∀ path ∈ ["cs/A.cs", "cs/x/A.cs"], Dump.LiesBelow "cs".toList path.toList) ∧
    (["cs/A.cs", "cs/x/A.cs"].map fun path => Path.components path.toList).Nodup ∧
    (afterFiles dumpedJob.recorded ["cs/A.cs", "cs/x/A.cs"] twoFolders.recorded).sink.dumps =
      ["debug/A.cs.type-mapping-prompt.txt", "debug/A.cs.type-mapping-response.txt",
       "debug/A.cs.pass1.doc-prompt.txt", "debug/A.cs.pass1.doc-response.txt",
       "debug/x/A.cs.type-mapping-prompt.txt"] ∧
    let observer : Observer FileTree Nat := fun _ _ _ _ n => n + 1
    let run := transferFiles dumpedJob.recorded observer.recorded ["cs/A.cs", "cs/x/A.cs"] 0
      twoFolders.recorded
    run.plain = transferFiles dumpedJob observer ["cs/A.cs", "cs/x/A.cs"] 0 twoFolders ∧
      (run.session.sink.dumps.map fun path => Path.components path.toList).Nodup := by
  have hbelow : ∀ path ∈ ["cs/A.cs", "cs/x/A.cs"], Dump.LiesBelow "cs".toList path.toList := by
    intro path hpath
    simp only [List.mem_cons, List.not_mem_nil, or_false] at hpath
    rcases hpath with rfl | rfl
    · exact ⟨["A.cs".toList], by simp, by decide +kernel⟩
    · exact ⟨["x".toList, "A.cs".toList], by simp, by decide +kernel⟩
  have hdistinct : (["cs/A.cs", "cs/x/A.cs"].map fun path => Path.components path.toList).Nodup := by
    decide +kernel
  exact ⟨rfl, hbelow, hdistinct, by decide +kernel,
    dumps_kept_apart dumpedJob _ _ 0 twoFolders rfl rfl hbelow hdistinct⟩

end DocTransfer.Transfer
