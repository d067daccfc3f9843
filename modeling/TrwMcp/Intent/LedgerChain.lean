import TrwMcp.Intent.Ledger

/-!
# What a verified chain determines

Two ledgers that verify under one checkpoint have the same number of entries and the same last hash.
A hash determines the text it was taken of, so from the last entry back to the first the entries
agree.
-/

namespace TrwMcp.Intent

open Handoff Lib

/-- What the ledger relies on of SHA-256 and of the text of floats. -/
structure ChainAssumptions (lib : Stdlib) : Prop where
  injective : Function.Injective lib.sha256
  hex : ∀ raw, ∀ c ∈ (lib.sha256 raw).toList, c.isDigit ∨ ('a' ≤ c ∧ c ≤ 'f')
  floats : FloatTexts lib

variable {lib : Stdlib}

theorem verify_valid {files : Files} (h : (verifyOverrideLedger lib files).valid = true) :
    ∃ entries head, readEntries files.ledger = .ok entries ∧
      walkChain lib genesisPrev 0 entries = (head, none) ∧
      (match readCheckpoint files.checkpoint with
        | none => entries = []
        | some checkpoint => recordedCount checkpoint = entries.length ∧
            strField lib checkpoint "head_hash" = head) ∧
      (verifyOverrideLedger lib files).entryCount = entries.length ∧
      (verifyOverrideLedger lib files).headHash = head := by
  unfold verifyOverrideLedger at h ⊢
  cases hread : readEntries files.ledger with
  | error reason => simp [hread] at h
  | ok entries =>
      simp only [hread] at h ⊢
      generalize hwalk : walkChain lib genesisPrev 0 entries = walked at h ⊢
      obtain ⟨head, broken⟩ := walked
      cases broken with
      | some broken => simp at h
      | none =>
          simp only at h ⊢
          refine ⟨entries, head, rfl, hwalk, ?_⟩
          cases hcheckpoint : readCheckpoint files.checkpoint with
          | none =>
              simp only [hcheckpoint] at h ⊢
              split_ifs at h ⊢ with hempty
              have hnil := List.isEmpty_iff.mp hempty
              subst hnil
              simp only [walkChain, Prod.mk.injEq] at hwalk
              exact ⟨rfl, rfl, hwalk.1⟩
          | some checkpoint =>
              simp only [hcheckpoint] at h ⊢
              split_ifs at h ⊢ with hmismatch
              simp only [not_or, not_not, ne_eq] at hmismatch
              exact ⟨hmismatch, rfl, rfl⟩

theorem verify_of {files : Files} {entries : List Entry} {head : String}
    (hread : readEntries files.ledger = .ok entries)
    (hwalk : walkChain lib genesisPrev 0 entries = (head, none))
    (hcheckpoint : match readCheckpoint files.checkpoint with
      | none => entries = []
      | some checkpoint => recordedCount checkpoint = entries.length ∧
          strField lib checkpoint "head_hash" = head) :
    (verifyOverrideLedger lib files).valid = true ∧
      (verifyOverrideLedger lib files).entryCount = entries.length ∧
      (verifyOverrideLedger lib files).headHash = head := by
  unfold verifyOverrideLedger
  simp only [hread, hwalk]
  cases hc : readCheckpoint files.checkpoint with
  | none =>
      simp only [hc] at hcheckpoint
      subst hcheckpoint
      simp only [walkChain, Prod.mk.injEq] at hwalk
      exact ⟨rfl, rfl, hwalk.1⟩
  | some checkpoint =>
      simp only [hc] at hcheckpoint
      simp [hcheckpoint.1, hcheckpoint.2]

theorem walkChain_snoc {prev head : String} {index : Nat} {entries : List Entry} {entry : Entry} :
    walkChain lib prev index (entries ++ [entry]) = (head, none) ↔
      ∃ mid, walkChain lib prev index entries = (mid, none) ∧
        strField lib entry "prev_hash" = mid ∧
        entryHash lib mid (sansHash entry) = strField lib entry "entry_hash" ∧
        strField lib entry "entry_hash" = head := by
  induction entries generalizing prev index with
  | nil =>
      simp only [List.nil_append, walkChain]
      constructor
      · intro h
        split_ifs at h with hbad
        · simp at h
        · simp only [not_or, not_not, ne_eq] at hbad
          exact ⟨prev, rfl, hbad.1, hbad.2, (Prod.mk.inj h).1⟩
      · rintro ⟨mid, hmid, h1, h2, h3⟩
        obtain rfl := (Prod.mk.inj hmid).1
        rw [if_neg (by simp [h1, h2]), h3]
  | cons e entries ih =>
      simp only [List.cons_append, walkChain]
      split_ifs with hbad
      · simp
      · exact ih

theorem genesisPrev_chars : ∀ c ∈ genesisPrev.toList, c ≠ '\x7b' := by
  have htext : genesisPrev.toList = List.replicate 64 '0' := String.toList_ofList
  rw [htext]
  intro c hc
  rw [List.eq_of_mem_replicate hc]
  decide

theorem walkChain_head (hlib : ChainAssumptions lib) {entries : List Entry} {head : String}
    (h : walkChain lib genesisPrev 0 entries = (head, none)) : ∀ c ∈ head.toList, c ≠ '\x7b' := by
  rcases List.eq_nil_or_concat entries with rfl | ⟨init, entry, rfl⟩
  · have hhead : genesisPrev = head := congrArg Prod.fst h
    exact hhead ▸ genesisPrev_chars
  · rw [List.concat_eq_append] at h
    obtain ⟨mid, -, -, hhash, hhead⟩ := walkChain_snoc.mp h
    rw [← hhead, ← hhash]
    rintro c hc rfl
    rcases hlib.hex _ _ hc with hd | hd
    · exact absurd hd (by decide)
    · exact absurd hd (by decide)

theorem entryHash_inj (hlib : ChainAssumptions lib) {prev prev' : String} {e e' : Entry}
    (hp : ∀ c ∈ prev.toList, c ≠ '\x7b') (hp' : ∀ c ∈ prev'.toList, c ≠ '\x7b')
    (h : entryHash lib prev e = entryHash lib prev' e') :
    prev = prev' ∧ normal lib (.obj e) = normal lib (.obj e') := by
  have hbytes := congrArg String.fromUTF8? (hlib.injective h)
  rw [fromUTF8_toUTF8, fromUTF8_toUTF8] at hbytes
  have htext := String.ofList_inj.mp (Option.some.inj hbytes)
  have hstop : ∀ e : Entry, ∀ c ∈ (canonicalText lib e).head?, (c != '\x7b') = false := by
    intro e c hc
    rw [canonicalText, dumps_obj] at hc
    obtain rfl := Option.some.inj hc
    rfl
  obtain ⟨hprev, hcanon⟩ := span_inj (p := (· != '\x7b'))
    (by simpa using hp) (by simpa using hp') (hstop e) (hstop e') htext
  exact ⟨String.toList_inj.mp hprev, dumps_injective hlib.floats hcanon⟩

/-- One entry, written twice: the same members up to formatting, and the same hash as `str` shows
it. -/
structure SameEntry (lib : Stdlib) (e e' : Entry) : Prop where
  members : normal lib (.obj (sansHash e)) = normal lib (.obj (sansHash e'))
  hash : strField lib e "entry_hash" = strField lib e' "entry_hash"

theorem walkChain_inj (hlib : ChainAssumptions lib) {es es' : List Entry} {head : String}
    (hlen : es.length = es'.length) (h : walkChain lib genesisPrev 0 es = (head, none))
    (h' : walkChain lib genesisPrev 0 es' = (head, none)) : List.Forall₂ (SameEntry lib) es es' := by
  induction es using List.reverseRecOn generalizing es' head with
  | nil =>
      obtain rfl := List.length_eq_zero_iff.mp hlen.symm
      exact .nil
  | append_singleton es e ih =>
      obtain ⟨es', e', rfl⟩ : ∃ init last, es' = init ++ [last] := by
        rcases List.eq_nil_or_concat es' with rfl | ⟨init, last, rfl⟩
        · simp at hlen
        · exact ⟨init, last, List.concat_eq_append⟩
      obtain ⟨mid, hmid, -, hhash, rfl⟩ := walkChain_snoc.mp h
      obtain ⟨mid', hmid', -, hhash', hsame⟩ := walkChain_snoc.mp h'
      -- the last hashes are one, so the entries under them are, and the hashes before
      obtain ⟨rfl, hmembers⟩ := entryHash_inj hlib (walkChain_head hlib hmid)
        (walkChain_head hlib hmid') (hhash.trans (hsame.symm.trans hhash'.symm))
      have hinit := ih (by simpa using hlen) hmid hmid'
      exact List.rel_append hinit (.cons ⟨hmembers, hsame.symm⟩ .nil)

theorem verify_determines (hlib : ChainAssumptions lib) {checkpoint ledger ledger' : FileText}
    (h : (verifyOverrideLedger lib ⟨ledger, checkpoint⟩).valid = true)
    (h' : (verifyOverrideLedger lib ⟨ledger', checkpoint⟩).valid = true) :
    ∃ es es', readEntries ledger = .ok es ∧ readEntries ledger' = .ok es' ∧
      List.Forall₂ (SameEntry lib) es es' := by
  obtain ⟨es, head, hread, hwalk, hcheck, -, -⟩ := verify_valid h
  obtain ⟨es', head', hread', hwalk', hcheck', -, -⟩ := verify_valid h'
  refine ⟨es, es', hread, hread', ?_⟩
  simp only at hcheck hcheck'
  cases hc : readCheckpoint checkpoint with
  | none =>
      simp only [hc] at hcheck hcheck'
      subst hcheck hcheck'
      exact .nil
  | some recorded =>
      simp only [hc] at hcheck hcheck'
      have hlen : es.length = es'.length := by
        have := hcheck.1.symm.trans hcheck'.1
        exact_mod_cast this
      obtain rfl := hcheck.2
      rw [← hcheck'.2] at hwalk'
      exact walkChain_inj hlib hlen hwalk hwalk'

end TrwMcp.Intent
