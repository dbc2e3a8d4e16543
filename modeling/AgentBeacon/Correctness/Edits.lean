import AgentBeacon.Wiki.Edits
import AgentBeacon.Wiki.Effects

/-!
# `Correctness.Edits` — what the edits of a page do

A patch request replaces the parts of a page that its edits name, one edit after the other. An edit that is
not to replace every occurrence must name a text that occurs once, overlapping occurrences counted. Besides,
a page must not become empty: edits that leave no text fail, whatever they replace.
-/

namespace AgentBeacon
open Matching

/-! ## Edits one after the other -/

/-- What an edit does: it replaces the only occurrence of its text, or every one. -/
inductive PatchEdit.Replaces (edit : PatchEdit) : List Char → List Char → Prop where
  | one {u v : List Char} (hone : edit.replaceAll = false)
      (hunique : ∀ u' v', u ++ (edit.oldString.toList ++ v) = u' ++ (edit.oldString.toList ++ v') → u' = u) :
      edit.Replaces (u ++ (edit.oldString.toList ++ v)) (u ++ (edit.newString.toList ++ v))
  | all {t t' : List Char} (hall : edit.replaceAll = true) (hsome : edit.oldString.toList <:+: t)
      (hreplaced : ReplacedAll edit.oldString.toList edit.newString.toList t t') : edit.Replaces t t'

/-- The edits in order, each on the text that the one before it leaves. -/
inductive ReplacesInOrder : List PatchEdit → List Char → List Char → Prop where
  | nil {t : List Char} : ReplacesInOrder [] t t
  | cons {edit : PatchEdit} {edits : List PatchEdit} {t t' t'' : List Char} (hedit : edit.Replaces t t')
      (hrest : ReplacesInOrder edits t' t'') : ReplacesInOrder (edit :: edits) t t''

/-! ## One edit -/

theorem applyEdit_all {edit : PatchEdit} (hall : edit.replaceAll = true) (t : List Char) :
    ∃ r, applyEdit t edit = some r ∧ ∀ t', r = .ok t' ↔ edit.Replaces t t' := by
  unfold applyEdit
  rw [if_pos hall]
  by_cases hsome : edit.oldString.toList <:+: t
  · have hfound : (findStr edit.oldString.toList t).isNone = false := by
      rw [Option.isNone_eq_false_iff]
      exact findBy_isSome.mpr hsome
    rw [hfound, if_neg Bool.false_ne_true]
    refine ⟨_, rfl, fun t' => ⟨fun h => ?_, fun h => ?_⟩⟩
    · exact .all hall hsome (replacedAll_iff.mpr (Except.ok.inj h).symm)
    · cases h with
      | one hone => simp [hone] at hall
      | all _ _ hreplaced => rw [replacedAll_iff.mp hreplaced]
  · have hfound : (findStr edit.oldString.toList t).isNone = true := by
      rw [← Option.not_isSome, Bool.not_eq_true']
      exact Bool.eq_false_iff.mpr fun h => hsome (findBy_isSome.mp h)
    rw [if_pos hfound]
    refine ⟨_, rfl, fun t' => ⟨fun h => ?_, fun h => ?_⟩⟩
    · cases h
    · cases h with
      | one hone => simp [hone] at hall
      | all _ hmatch => exact absurd hmatch hsome

theorem applyEdit_one {edit : PatchEdit} (hone : edit.replaceAll = false) (t : List Char) :
    ∃ r, applyEdit t edit = some r ∧ ∀ t', r = .ok t' ↔ edit.Replaces t t' := by
  have hnot : ¬ edit.replaceAll = true := by simp [hone]
  unfold applyEdit
  rw [if_neg hnot]
  cases hfind : findStr edit.oldString.toList t with
  | none =>
      refine ⟨_, rfl, fun t' => ⟨fun h => ?_, fun h => ?_⟩⟩
      · cases h
      · cases h with
        | @one u v _ _ =>
            have hmatch : edit.oldString.toList <:+: u ++ (edit.oldString.toList ++ v) :=
              ⟨u, v, List.append_assoc ..⟩
            exact absurd hmatch (findBy_eq_none hfind)
        | all hall => exact absurd hall hnot
  | some pos =>
      obtain ⟨u, v, rfl, hpos, hleft⟩ := findBy_eq_some hfind
      replace hpos : utf8Length u = pos := hpos
      subst hpos
      have hsecond := second_match hleft
      dsimp only
      split
      · next hmore =>
          -- a second match, so no edit of a single one
          obtain ⟨u', v', heq, hne⟩ := hsecond.mp hmore
          refine ⟨_, rfl, fun t' => ⟨fun h => ?_, fun h => ?_⟩⟩
          · cases h
          · generalize htext : u ++ (edit.oldString.toList ++ v) = text at h heq
            cases h with
            | one _ hunique => exact absurd ((hunique u' v' heq).trans (hunique u v htext.symm).symm) hne
            | all hall => exact absurd hall hnot
      · next hmore =>
          have hunique (u' v' : List Char)
              (heq : u ++ (edit.oldString.toList ++ v) = u' ++ (edit.oldString.toList ++ v')) : u' = u := by
            by_contra hne
            exact hmore (hsecond.mpr ⟨u', v', heq, hne⟩)
          have hafter : sliceAt (utf8Length u + utf8Length edit.oldString.toList)
              (u ++ (edit.oldString.toList ++ v)) = some (u ++ edit.oldString.toList, v) := by
            rw [← utf8Length_append, ← List.append_assoc]
            exact sliceAt_append _ _
          rw [sliceAt_append, hafter]
          refine ⟨_, rfl, fun t' => ⟨fun h => ?_, fun h => ?_⟩⟩
          · rw [← Except.ok.inj h, List.append_assoc]
            exact .one hone hunique
          · generalize htext : u ++ (edit.oldString.toList ++ v) = text at h hunique
            cases h with
            | one _ hunique' =>
                have hu := hunique' u v htext.symm
                subst hu
                have hv := List.append_cancel_left (List.append_cancel_left htext)
                rw [hv, List.append_assoc]
            | all hall => exact absurd hall hnot

/-- **One edit never panics, and succeeds with what it is to do.** -/
theorem applyEdit_iff (edit : PatchEdit) (t : List Char) :
    ∃ r, applyEdit t edit = some r ∧ ∀ t', r = .ok t' ↔ edit.Replaces t t' := by
  cases hall : edit.replaceAll with
  | true => exact applyEdit_all hall t
  | false => exact applyEdit_one hall t

/-! ## All edits -/

/-- By induction on the edits: an edit that fails stops the loop, and none of the text before it remains. -/
theorem applyEditsFrom_iff (i : Nat) (t : List Char) (edits : List PatchEdit) :
    ∃ r, applyEditsFrom i t edits = some r ∧ ∀ t', r = .ok t' ↔ ReplacesInOrder edits t t' ∧ t' ≠ [] := by
  induction edits generalizing i t with
  | nil =>
      refine ⟨_, rfl, fun t' => ?_⟩
      constructor
      · intro h
        split at h
        · cases h
        · next hne =>
            cases h
            exact ⟨.nil, hne⟩
      · rintro ⟨⟨⟩, hne⟩
        rw [if_neg hne]
  | cons edit edits ih =>
      obtain ⟨r, hr, hiff⟩ := applyEdit_iff edit t
      unfold applyEditsFrom
      rw [hr]
      cases r with
      | error reason =>
          refine ⟨_, rfl, fun t' => ?_⟩
          constructor
          · intro h
            cases h
          · rintro ⟨h, -⟩
            cases h with
            | cons hedit _ => cases (hiff _).mpr hedit
      | ok next =>
          obtain ⟨r', hr', hiff'⟩ := ih (i + 1) next
          refine ⟨r', hr', fun t' => ?_⟩
          rw [hiff' t']
          constructor
          · rintro ⟨hrest, hne⟩
            exact ⟨.cons ((hiff next).mp rfl) hrest, hne⟩
          · rintro ⟨h, hne⟩
            cases h with
            | cons hedit hrest =>
                have hnext := Except.ok.inj ((hiff _).mpr hedit)
                subst hnext
                exact ⟨hrest, hne⟩

theorem applyEdits_iff (body : String) (edits : List PatchEdit) :
    ∃ r, applyEdits body edits = some r ∧
      ∀ result, r = .ok result ↔ ReplacesInOrder edits body.toList result.toList ∧ result ≠ "" := by
  obtain ⟨r, hr, hiff⟩ := applyEditsFrom_iff 0 body.toList edits
  have hnonempty (result : String) : result.toList ≠ [] ↔ result ≠ "" := by simp
  refine ⟨r.map String.ofList, by rw [applyEdits, hr]; rfl, fun result => ?_⟩
  rw [← hnonempty, ← hiff]
  cases r with
  | error failure =>
      constructor
      · intro h
        cases h
      · intro h
        cases h
  | ok text =>
      constructor
      · intro h
        rw [← Except.ok.inj h, String.toList_ofList]
      · intro h
        rw [Except.ok.inj h]
        exact congrArg Except.ok String.ofList_toList

/-- A change whose text cannot be edited is rolled back. -/
theorem WikiDb.changeCommit_failed {uuid : String → String} {db held : WikiDb} {change : PageChange}
    {heldTags : List (String × String)} {page : WikiPage} {failure : BodyEditFailure}
    (hheld : db.materializeTags uuid change.addTags = some (held, heldTags))
    (hpage : held.lockPage change = .ok page) (hfailed : change.transformBody page.body = .error failure)
    (live : String → Bool) (audiences : List PublicationAudience) :
    (db.changeCommit uuid live change audiences).2 = db := by
  unfold WikiDb.changeCommit
  rw [hheld]
  dsimp only
  rw [hpage]
  dsimp only
  rw [hfailed]
  split
  · rfl
  · split
    · rfl
    · split <;> rfl

/-- **Wiki edits do what they say.** Whatever the text of a page and the edits, no slice is taken inside a
character; the edits succeed exactly when each, one after the other, finds its only occurrence or, to replace
all, at least one, and some text is left; and the result is that replacement. A change whose edits fail
leaves the wiki as it was. -/
theorem edits_applied (body : String) (edits : List PatchEdit) :
    applyEdits body edits ≠ none ∧
    (∀ result, applyEdits body edits = some (.ok result) ↔
      ReplacesInOrder edits body.toList result.toList ∧ result ≠ "") ∧
    ∀ (uuid : String → String) (live : String → Bool) (db held : WikiDb) (change : PageChange)
      (heldTags : List (String × String)) (page : WikiPage) (audiences : List PublicationAudience)
      (failure : BodyEditFailure), applyEdits page.body edits = some (change.transformBody page.body) →
      db.materializeTags uuid change.addTags = some (held, heldTags) → held.lockPage change = .ok page →
      applyEdits page.body edits = some (.error failure) →
        (db.changeCommit uuid live change audiences).2 = db := by
  obtain ⟨r, hr, hiff⟩ := applyEdits_iff body edits
  refine ⟨?_, ?_, ?_⟩
  · rw [hr]
    exact Option.some_ne_none r
  · intro result
    rw [hr, Option.some.injEq]
    exact hiff result
  · intro uuid live db held change heldTags page audiences failure hbody hheld hpage hfailed
    have htransform := Option.some.inj (hbody.symm.trans hfailed)
    exact WikiDb.changeCommit_failed hheld hpage htransform live audiences

/-- One edit that replaces the only letter of a page by nothing. -/
def emptying : List PatchEdit := [⟨"a", "", false⟩]

/-- The edit finds its one occurrence, and yet it is refused: nothing would be left of the page. -/
theorem emptying_refused : ReplacesInOrder emptying "a".toList [] ∧
    (∀ result, applyEdits "a" emptying ≠ some (.ok result)) ∧
    ∃ failure, applyEdits "a" emptying = some (.error failure) ∧ failure.reason = .emptyResult := by
  have hrefused : applyEdits "a" emptying = some (.error ⟨none, .emptyResult⟩) := rfl
  refine ⟨.cons ?_ .nil, fun result h => ?_, _, hrefused, rfl⟩
  · have hunique (u v : List Char) (h : [] ++ (['a'] ++ []) = u ++ (['a'] ++ v)) : u = [] := by
      have hlength := congrArg List.length h
      simp only [List.length_append, List.length_cons, List.length_nil] at hlength
      exact List.length_eq_zero_iff.mp (by omega)
    exact @PatchEdit.Replaces.one ⟨"a", "", false⟩ [] [] rfl hunique
  · rw [hrefused] at h
    cases h

end AgentBeacon
