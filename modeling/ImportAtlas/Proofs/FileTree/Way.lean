import ImportAtlas.FileTree.Basic
import ImportAtlas.Proofs.Outcome

namespace ImportAtlas.FileTree

/-- Following pieces from a place leads over another one. -/
inductive LeadsOver (t : FileTree) (q : Place) : Place → List FileName → Prop
  | idle {place : Place} {piece : FileName} {rest : List FileName}
      (hidle : Path.isIdle piece = true) (h : LeadsOver t q place rest) :
      LeadsOver t q place (piece :: rest)
  | up {place : Place} {rest : List FileName} (h : LeadsOver t q place.dropLast rest) :
      LeadsOver t q place (['.', '.'] :: rest)
  | here {place : Place} {piece : FileName} {rest : List FileName}
      (hidle : Path.isIdle piece = false) (hparent : piece ≠ ['.', '.'])
      (hq : q = place ++ [piece]) : LeadsOver t q place (piece :: rest)
  | down {place : Place} {piece : FileName} {rest : List FileName}
      (hidle : Path.isIdle piece = false) (hparent : piece ≠ ['.', '.'])
      (hnode : ∀ target, t.node? (place ++ [piece]) ≠ some (.link target))
      (h : LeadsOver t q (place ++ [piece]) rest) : LeadsOver t q place (piece :: rest)
  | jump {place : Place} {piece target : FileName} {rest : List FileName}
      (hidle : Path.isIdle piece = false) (hparent : piece ≠ ['.', '.'])
      (hnode : t.node? (place ++ [piece]) = some (.link target))
      (h : LeadsOver t q (if target.head? = some '/' then [] else place) (pieces target ++ rest)) :
      LeadsOver t q place (piece :: rest)

theorem leadsOver_cons_iff {t : FileTree} {q place : Place} {piece : FileName}
    {rest : List FileName} : t.LeadsOver q place (piece :: rest) ↔
      if Path.isIdle piece then t.LeadsOver q place rest
      else if piece = ['.', '.'] then t.LeadsOver q place.dropLast rest
      else q = place ++ [piece] ∨ match t.node? (place ++ [piece]) with
        | some (.link target) =>
          t.LeadsOver q (if target.head? = some '/' then [] else place) (pieces target ++ rest)
        | _ => t.LeadsOver q (place ++ [piece]) rest := by
  constructor
  · intro h
    cases h with
    | idle hidle h => simpa [hidle] using h
    | up h => exact h
    | here hidle hparent hq => simp [hidle, hparent, hq]
    | down hidle hparent hnode h =>
      rw [if_neg (by simp [hidle]), if_neg hparent]
      refine .inr ?_
      split
      · exact absurd ‹_› (hnode _)
      · exact h
    | jump hidle hparent hnode h => simpa [hidle, hparent, hnode] using .inr h
  · intro h
    split at h
    · exact .idle ‹_› h
    split at h
    · rename_i hparent
      exact hparent ▸ .up h
    rename_i hidle hparent
    have hidle := Bool.eq_false_iff.2 hidle
    rcases h with hq | h
    · exact .here hidle hparent hq
    split at h
    · exact .jump hidle hparent ‹_› h
    · rename_i hnode
      exact .down hidle hparent hnode h

theorem LeadsOver.ne_nil {t : FileTree} {q place : Place} {todo : List FileName}
    (h : t.LeadsOver q place todo) : q ≠ [] := by
  induction h with
  | idle _ _ ih => exact ih
  | up _ ih => exact ih
  | here _ _ hq => simp [hq]
  | down _ _ _ _ ih => exact ih
  | jump _ _ _ _ ih => exact ih

inductive Restricted (t : FileTree) (admits : Place → Bool) (place : Place)
    (todo : List FileName) (r : Place × Nat) : Except FileFault (Place × Nat) → Prop
  | admitted (h : ∀ q, t.LeadsOver q place todo → admits q = true) :
      Restricted t admits place todo r (.ok r)
  | refused {q : Place} (h : t.LeadsOver q place todo) (hq : admits q = false) :
      Restricted t admits place todo r (.error .nameTooLong)

variable {t : FileTree} {admits : Place → Bool} {links : Nat} {place : Place}
  {todo : List FileName} {r : Place × Nat}

theorem Restricted.of_iff {place' : Place} {todo' : List FileName}
    {answer : Except FileFault (Place × Nat)} (h : t.Restricted admits place' todo' r answer)
    (hsame : ∀ q, admits q = true ∨ (t.LeadsOver q place todo ↔ t.LeadsOver q place' todo')) :
    t.Restricted admits place todo r answer := by
  cases h with
  | admitted h =>
    exact .admitted fun q hq => (hsame q).elim id fun hiff => h q (hiff.1 hq)
  | @refused q h hq =>
    exact .refused (((hsame q).resolve_left (by simp [hq])).2 h) hq

theorem restricted_followPieces
    {jump jump' : Place → List FileName → Except FileFault (Place × Nat)}
    (hjump : ∀ place todo, jump place todo = .ok r →
      t.Restricted admits place todo r (jump' place todo))
    (h : t.followPieces true (fun _ => true) links jump place todo = .ok r) :
    t.Restricted admits place todo r (t.followPieces true admits links jump' place todo) := by
  induction todo generalizing place with
  | nil =>
    cases h
    exact .admitted nofun
  | cons piece rest ih =>
    rw [followPieces] at h ⊢
    split at h
    · cases h
    rename_i hdirectory
    rw [if_neg hdirectory]
    split at h
    · rename_i hidle
      rw [if_pos hidle]
      exact (ih h).of_iff fun q => .inr (by simp [leadsOver_cons_iff, hidle])
    rename_i hidle
    rw [if_neg hidle]
    split at h
    · rename_i hparent
      rw [if_pos hparent]
      exact (ih h).of_iff fun q => .inr (by rw [leadsOver_cons_iff, if_neg hidle, if_pos hparent])
    rename_i hparent
    rw [if_neg hparent]
    split at h
    · cases h
    rename_i hlength
    cases hadmits : admits (place ++ [piece]) with
    | false =>
      rw [if_pos (by simp)]
      exact .refused (.here (Bool.eq_false_iff.2 hidle) hparent rfl) hadmits
    | true =>
      rw [if_neg (by simpa [hadmits] using hlength)]
      -- a place that is not admitted is not this one
      have hsame (q : Place) : admits q = true ∨ ¬ q = place ++ [piece] := by
        by_cases hq : q = place ++ [piece]
        · exact .inl (hq ▸ hadmits)
        · exact .inr hq
      cases hnode : t.node? (place ++ [piece]) with
      | none => simp [hnode] at h
      | some node =>
        cases node with
        | link target =>
          simp only [hnode, Bool.not_true, Bool.and_false, Bool.false_eq_true, if_false] at h ⊢
          exact (hjump _ _ h).of_iff fun q => (hsame q).imp_right fun hq => by
            simp [leadsOver_cons_iff, hidle, hparent, hnode, hq]
        | file bytes =>
          simp only [hnode] at h ⊢
          exact (ih h).of_iff fun q => (hsame q).imp_right fun hq => by
            simp [leadsOver_cons_iff, hidle, hparent, hnode, hq]
        | directory entries =>
          simp only [hnode] at h ⊢
          exact (ih h).of_iff fun q => (hsame q).imp_right fun hq => by
            simp [leadsOver_cons_iff, hidle, hparent, hnode, hq]

theorem reach_eq_ok {through : Bool} {path : Path} : t.reach through path = .ok r ↔
    (path.text.contains '\x00' = false ∧ path.text ≠ [] ∧
      Text.byteLength path.text ≤ pathLimit) ∧
    t.follow through linkLimit (t.startOf path) (pieces path.text) = .ok r := by
  unfold reach
  split
  · simp_all
  split
  · simp_all
  split
  · rename_i hlong
    simp [Nat.not_le.2 hlong]
  · rename_i hlong
    simp_all

theorem restricted_followWithin (admits : Place → Bool)
    (h : t.follow true links place todo = .ok r) :
    t.Restricted admits place todo r (t.followWithin true admits links place todo) := by
  unfold follow at h
  induction links generalizing place todo with
  | zero => exact restricted_followPieces (fun _ _ h => by cases h) h
  | succ links ih => exact restricted_followPieces (fun _ _ => ih) h

end ImportAtlas.FileTree
