/-!
# The order of texts

By code point: the first difference decides, and a text comes before those that go on from it.
-/
namespace Abacus

def textLe : List Char → List Char → Bool
  | [], _            => true
  | _ :: _, []       => false
  | c :: cs, d :: ds => c.toNat < d.toNat || (c.toNat == d.toNat && textLe cs ds)

theorem textLe_total : ∀ s t : List Char, (textLe s t || textLe t s) = true
  | [], _            => by simp [textLe]
  | _ :: _, []       => by simp [textLe]
  | c :: cs, d :: ds => by
    have ih := textLe_total cs ds
    simp only [textLe, Bool.or_eq_true, Bool.and_eq_true, decide_eq_true_eq, beq_iff_eq] at ih ⊢
    rcases Nat.lt_trichotomy c.toNat d.toNat with h | h | h
    · exact Or.inl (Or.inl h)
    · exact ih.imp (fun ih => Or.inr ⟨h, ih⟩) fun ih => Or.inr ⟨h.symm, ih⟩
    · exact Or.inr (Or.inl h)

theorem textLe_trans : ∀ s t u : List Char, textLe s t = true → textLe t u = true → textLe s u = true
  | [], _, _, _, _                      => by simp [textLe]
  | _ :: _, [], _, h, _                 => by simp [textLe] at h
  | _ :: _, _ :: _, [], _, h            => by simp [textLe] at h
  | c :: cs, d :: ds, e :: es, hst, htu => by
    have ih := textLe_trans cs ds es
    simp only [textLe, Bool.or_eq_true, Bool.and_eq_true, decide_eq_true_eq, beq_iff_eq] at hst htu ⊢
    rcases hst with h | ⟨h, hs⟩ <;> rcases htu with h' | ⟨h', ht⟩
    · exact Or.inl (by omega)
    · exact Or.inl (by omega)
    · exact Or.inl (by omega)
    · exact Or.inr ⟨by omega, ih hs ht⟩

theorem textLe_antisymm : ∀ s t : List Char, textLe s t = true → textLe t s = true → s = t
  | [], [], _, _                   => rfl
  | [], _ :: _, _, h               => by simp [textLe] at h
  | _ :: _, [], h, _               => by simp [textLe] at h
  | c :: cs, d :: ds, hst, hts     => by
    have ih := textLe_antisymm cs ds
    simp only [textLe, Bool.or_eq_true, Bool.and_eq_true, decide_eq_true_eq, beq_iff_eq] at hst hts
    rcases hst with h | ⟨h, hs⟩ <;> rcases hts with h' | ⟨_, ht⟩
    · omega
    · omega
    · omega
    · rw [ih hs ht, show c = d from Char.toNat_inj.1 h]

end Abacus
