import DocTransfer.Proofs.Edit.Repetition
import DocTransfer.Proofs.EditLoop.Bounds
import DocTransfer.Proofs.EditLoop.CrashSafety
import DocTransfer.Proofs.Session.Lockstep

/-! # A model that insists on one edit

When every answer brings the same edit, and this edit always fits and always changes the text, no
batch settles the loop. It then goes on for all the passes it has, and puts the same text in twice
with each. -/

namespace DocTransfer.Transfer

open Model

variable {σ φ : Type}

/-! ## What is seen of a session -/

/-- A session that has come from another one, with events of one kind only on the way. -/
def SeesOnly (kind : Event → Prop) (s s' : Session σ φ) : Prop :=
  ∃ trace, s'.events = s.events ++ trace ∧ ∀ x ∈ trace, kind x

theorem SeesOnly.refl (kind : Event → Prop) (s : Session σ φ) : SeesOnly kind s s :=
  ⟨[], by simp, by simp⟩

theorem SeesOnly.trans {kind : Event → Prop} {s s' s'' : Session σ φ} (h : SeesOnly kind s s')
    (h' : SeesOnly kind s' s'') : SeesOnly kind s s'' := by
  obtain ⟨earlier, hearlier, hkind⟩ := h
  obtain ⟨later, hlater, hkind'⟩ := h'
  refine ⟨earlier ++ later, by rw [hlater, hearlier, List.append_assoc], ?_⟩
  intro x hx
  rcases List.mem_append.mp hx with hx | hx
  · exact hkind x hx
  · exact hkind' x hx

/-- What holds of the events of each request and each stored text holds of those of a loop. -/
theorem editLoop_seesOnly {kind : Event → Prop} {service : Service σ} {sink : Sink φ}
    (hask : ∀ label prompt s, SeesOnly kind s (ask service sink label prompt s).2)
    (hstore : ∀ text (s : Session σ φ), SeesOnly kind s (store sink text s).2) (maxPasses : Nat)
    (b : Brief) (source : String) (s : Session σ φ) :
    SeesOnly kind s (editLoop service sink maxPasses b source s).2 := by
  have hkept : Kept service sink (SeesOnly kind s) :=
    { ask := fun label prompt h => h.trans (hask label prompt _)
      store := fun text h => h.trans (hstore text _) }
  exact (hkept.lockstep.editLoop maxPasses b source ⟨rfl, .refl kind s⟩).2.2

/-! ## Always the same answer -/

/-- A model that answers every prompt, with the same edits each time. -/
def Insists (service : Service σ) (edits : List Edit) : Prop :=
  ∀ state prompt, ∃ answer, (service.complete state prompt false).1 = .ok answer ∧
    batchOf answer = edits

/-- A sink that keeps every text. -/
def Lossless (sink : Sink φ) : Prop :=
  ∀ place text, (sink.store place text).1 = .ok ()

/-- What can be seen of a loop whose model insists on some edits. -/
def Expected (edits : List Edit) (sink : Sink φ) : Event → Prop
  | .answered answer => batchOf answer = edits
  | .refused _ => False
  | .lost _ => ¬ Lossless sink
  | _ => True

theorem ask_expected {service : Service σ} {edits : List Edit} (hinsists : Insists service edits)
    (sink : Sink φ) (label prompt : String) (s : Session σ φ) :
    SeesOnly (Expected edits sink) s (ask service sink label prompt s).2 := by
  obtain ⟨answer, hanswer, hedits⟩ := hinsists s.model prompt
  unfold ask
  cases hreply : service.complete s.model prompt false with
  | mk reply model =>
      rw [hreply] at hanswer
      cases hanswer
      exact ⟨_, rfl, by simp [Expected, hedits]⟩

theorem store_expected (edits : List Edit) (sink : Sink φ) (text : String) (s : Session σ φ) :
    SeesOnly (Expected edits sink) s (store sink text s).2 := by
  unfold store
  cases hstore : sink.store s.sink text with
  | mk result after =>
      cases result with
      | ok _ => exact ⟨_, rfl, by simp [Expected]⟩
      | error e =>
          have hlossy : ¬ Lossless sink := by
            intro h
            have hkept := h s.sink text
            simp [hstore] at hkept
          exact ⟨_, rfl, by simp [Expected, hlossy]⟩

theorem batches_eq_replicate {edits : List Edit} {sink : Sink φ} {events : List Event}
    (h : ∀ x ∈ events, Expected edits sink x) :
    batches events = List.replicate (batches events).length edits := by
  rw [List.eq_replicate_iff]
  refine ⟨rfl, ?_⟩
  intro received hreceived
  obtain ⟨x, hx, hbatch⟩ := List.mem_filterMap.mp hreceived
  have hkind := h x hx
  cases x with
  | answered answer =>
      cases hbatch
      exact hkind
  | asked prompt => cases hbatch
  | refused cause => cases hbatch
  | stored text => cases hbatch
  | lost cause => cases hbatch

/-- A loop that gets the same edits all the time, and edits that change something, comes to no other
end than its cap. -/
theorem Course.capReached_of_expected {b : Brief} {n : Nat} {p : Progress} {events : List Event}
    {o : Outcome} (h : Course b n p events (.ok o)) {edits : List Edit} {sink : Sink φ}
    (hbusy : isConverged edits = false) (hkind : ∀ x ∈ events, Expected edits sink x) :
    o.ending = .capReached ∧ batches events = List.replicate n edits := by
  have hbatches := batches_eq_replicate hkind
  obtain ⟨-, ⟨earlier, last, hreceived, hidle, -⟩, -⟩ | ⟨hend, -, hlength⟩ := h.ending_cases
  · have hlast : last = edits := by
      rw [hreceived] at hbatches
      exact (List.eq_replicate_iff.mp hbatches).2 last (by simp)
    rw [hlast, hbusy] at hidle
    cases hidle
  · rw [hlength] at hbatches
    exact ⟨hend, hbatches⟩

/-- A loop whose model answers all the time fails only when the sink does. -/
theorem Course.ok_of_expected {b : Brief} {n : Nat} {p : Progress} {events : List Event}
    {result : Except Error Outcome} (h : Course b n p events result) {edits : List Edit}
    {sink : Sink φ} (hlossless : Lossless sink) (hkind : ∀ x ∈ events, Expected edits sink x) :
    ∃ o, result = .ok o := by
  obtain ⟨o, ho, -⟩ | ⟨e, steady, -, rfl, -⟩ | ⟨e, steady, -, rfl, -⟩ := h.calm_or_failure
  · exact ⟨o, ho⟩
  · exact absurd hlossless (hkind (.lost e) (by simp))
  · exact (hkind (.refused e) (by simp)).elim

/-- An edit that puts texts around a piece of code, not both empty, fits every text with that piece
in it, and so it does each time that it is run again: one edit is applied, none is skipped, and the
text is longer by all that the edit inserts. A loop whose model insists on such an edit never comes
to rest: it makes all the requests it may, applies the edit with each of them, and fails only where
the sink does. -/
theorem surround_never_settles (service : Service σ) (sink : Sink φ) (maxPasses : Nat) (b : Brief)
    (old before after source : String) (s : Session σ φ) (hold : old ≠ "")
    (hgrows : before ≠ "" ∨ after ≠ "") (hoccurs : old.toList <:+: source.toList) :
    (∀ n, patch [.surround old before after] (rerun [.surround old before after] n source.toList) =
        { code := rerun [.surround old before after] (n + 1) source.toList
          applied := 1, skipped := 0 }) ∧
    (∀ n, (rerun [.surround old before after] n source.toList).length =
        source.length + n * (before.length + after.length)) ∧
    (∀ n, (rerun [.surround old before after] n source.toList).Perm
        (source.toList ++ (List.replicate n (before.toList ++ after.toList)).flatten)) ∧
    (Insists service [.surround old before after] →
      (∀ o, (editLoop service sink maxPasses b source s).1 = .ok o →
        o.ending = .capReached ∧ o.passes = max 1 maxPasses ∧ o.requests = 2 * max 1 maxPasses ∧
        o.applied = o.requests ∧ o.skipped = 0 ∧
        o.code = rerun [.surround old before after] o.requests source.toList) ∧
      (Lossless sink → ∃ o, (editLoop service sink maxPasses b source s).1 = .ok o)) := by
  refine ⟨patch_rerun hold hgrows hoccurs, ?_, perm_rerun hold hgrows hoccurs, ?_⟩
  · intro n
    rw [length_rerun hold hgrows hoccurs, String.length_toList]
  intro hinsists
  obtain ⟨trace, htrace, hcourse⟩ := editLoop_course service sink maxPasses b source s
  obtain ⟨trace', htrace', hkind⟩ :=
    editLoop_seesOnly (ask_expected hinsists sink) (store_expected _ sink) maxPasses b source s
  obtain rfl := List.append_cancel_left (htrace'.symm.trans htrace)
  refine ⟨?_, fun hlossless => hcourse.ok_of_expected hlossless hkind⟩
  intro o ho
  rw [ho] at hcourse
  have hbusy : isConverged [.surround old before after] = false := by
    simp [isConverged, Edit.isIdle_surround hgrows]
  obtain ⟨hend, hbatches⟩ := hcourse.capReached_of_expected hbusy hkind
  have hpatch : patch (batches trace').flatten source.toList =
      { code := rerun [.surround old before after] (2 * max 1 maxPasses) source.toList
        applied := 2 * max 1 maxPasses } := by
    rw [hbatches, List.flatten_replicate_singleton, patch_replicate hold hgrows hoccurs]
  obtain ⟨hcode, happlied, hskipped, hrequests⟩ := hcourse.outcome_eq_patch
  have hpasses := hcourse.passes_eq
  simp only [hpatch, Nat.zero_add] at hcode happlied hskipped
  simp only [hbatches, List.length_replicate, Nat.zero_add] at hrequests
  refine ⟨hend, by omega, hrequests, by omega, hskipped, ?_⟩
  rw [hcode, hrequests]

/-- A model that gives one answer to every prompt. -/
def steadfast (text : String) : Service Unit where
  provider := "scripted"
  model := "scripted-1"
  complete _ _ _ := (.ok { text }, ())

/-- The comment names what it stands before, so that the second run finds the first occurrence
within the comment that the first run has put in. -/
theorem surround_never_settles_nested :
    rerun [.surround "class" "/** A class. */\n" ""] 2 "class A".toList =
      "/** A /** A class. */\nclass. */\nclass A".toList ∧
    patch [.surround "class" "/** A class. */\n" ""]
        (rerun [.surround "class" "/** A class. */\n" ""] 1 "class A".toList) =
      { code := rerun [.surround "class" "/** A class. */\n" ""] 2 "class A".toList
        applied := 1, skipped := 0 } ∧
    ∃ o, (editLoop
          (steadfast "[[\"class\",\"/** A class. */\\nclass\"]]") silent 0
          ⟨[], "A.cs"⟩ "class A" { model := (), sink := () }).1 = .ok o ∧
      o.ending = .capReached ∧ o.requests = 2 ∧ o.applied = o.requests ∧
      o.code = rerun [.surround "class" "/** A class. */\n" ""] o.requests "class A".toList := by
  have hoccurs : "class".toList <:+: "class A".toList := ⟨[], " A".toList, by decide⟩
  have hinsists : Insists (steadfast "[[\"class\",\"/** A class. */\\nclass\"]]")
      [.surround "class" "/** A class. */\n" ""] := by
    intro _ _
    exact ⟨_, rfl, by decide +kernel⟩
  obtain ⟨hpatch, -, -, hloop⟩ :=
    surround_never_settles (steadfast "[[\"class\",\"/** A class. */\\nclass\"]]") silent 0
      ⟨[], "A.cs"⟩ "class" "/** A class. */\n" "" "class A" { model := (), sink := () }
      (by decide) (by decide) hoccurs
  obtain ⟨hends, hok⟩ := hloop hinsists
  obtain ⟨o, ho⟩ := hok fun _ _ => rfl
  obtain ⟨hend, -, hrequests, happlied, -, hcode⟩ := hends o ho
  exact ⟨by decide +kernel, hpatch 1, o, ho, hend, hrequests, happlied, hcode⟩

end DocTransfer.Transfer
