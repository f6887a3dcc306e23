import KemtlsMavlink.Hqc.Fft
import KemtlsMavlink.Hqc.GfField
import KemtlsMavlink.Library.Coefficients
import KemtlsMavlink.Library.SubsetSums

namespace KemtlsMavlink.Hqc

open Library Library.Coefficients Polynomial

/-- The value at `x` of the polynomial with the coefficients `f`. -/
noncomputable def valueAt (f : List UInt16) (x : Gf) : Gf := (ofList (f.map Gf.of)).eval x

theorem valueAt_cons (a : UInt16) (f : List UInt16) (x : Gf) :
    valueAt (a :: f) x = Gf.of a + x * valueAt f x := by
  rw [valueAt, List.map_cons, ofList_cons, eval_add, eval_C, eval_mul, eval_X, valueAt]

theorem valueAt_nil (x : Gf) : valueAt [] x = 0 := eval_zero

theorem valueAt_append (f g : List UInt16) (x : Gf) :
    valueAt (f ++ g) x = valueAt f x + x ^ f.length * valueAt g x := by
  rw [valueAt, List.map_append, eval_ofList_append, List.length_map, valueAt, valueAt]

theorem valueAt_zipWith_xor {f g : List UInt16} (h : f.length = g.length) (x : Gf) :
    valueAt (List.zipWith (· ^^^ ·) f g) x = valueAt f x + valueAt g x := by
  have hm : (List.zipWith (· ^^^ ·) f g).map Gf.of =
      List.zipWith (· + ·) (f.map Gf.of) (g.map Gf.of) := by
    rw [List.map_zipWith, List.zipWith_map]
    simp only [Gf.of_xor]
  rw [valueAt, hm, ofList_zipWith_add (by simpa using h), eval_add, valueAt, valueAt]

def IsRadix (f : List UInt16) (r : List UInt16 × List UInt16) : Prop :=
  ∀ x, valueAt f x = valueAt r.1 (artinSchreier x) + x * valueAt r.2 (artinSchreier x)

theorem isRadix_four {f : List UInt16} (hf : f.length = 16) : IsRadix f (radix 4 f) := by
  intro x
  match f, hf with
  | [_, _, _, _, _, _, _, _, _, _, _, _, _, _, _, _], _ =>
    simp only [radix, List.getD_cons_succ, List.getD_cons_zero, valueAt_cons, valueAt_nil,
      Gf.of_xor, artinSchreier_apply]
    rw [← sub_eq_zero]
    ring_nf
    simp only [CharTwo.ofNat_eq_mod, Nat.reduceMod, Nat.cast_zero, mul_zero, neg_zero,
      sub_zero]

theorem isRadix_three {f : List UInt16} (hf : f.length = 8) : IsRadix f (radix 3 f) := by
  intro x
  match f, hf with
  | [_, _, _, _, _, _, _, _], _ =>
    simp only [radix, List.getD_cons_succ, List.getD_cons_zero, valueAt_cons, valueAt_nil,
      Gf.of_xor, artinSchreier_apply]
    rw [← sub_eq_zero]
    ring_nf
    simp only [CharTwo.ofNat_eq_mod, Nat.reduceMod, Nat.cast_zero, mul_zero, neg_zero,
      sub_zero]

theorem isRadix_two {f : List UInt16} (hf : f.length = 4) : IsRadix f (radix 2 f) := by
  intro x
  match f, hf with
  | [_, _, _, _], _ =>
    simp only [radix, List.getD_cons_succ, List.getD_cons_zero, valueAt_cons, valueAt_nil,
      Gf.of_xor, artinSchreier_apply]
    rw [← sub_eq_zero]
    ring_nf
    simp only [CharTwo.ofNat_eq_mod, Nat.reduceMod, Nat.cast_zero, mul_zero, neg_zero,
      sub_zero]

theorem isRadix_one {f : List UInt16} (hf : f.length = 2) : IsRadix f (radix 1 f) := by
  intro x
  match f, hf with
  | [_, _], _ => simp [radix, valueAt_cons, valueAt_nil]

theorem valueAt_parts {f : List UInt16} {n : Nat} (hf : f.length = 4 * n) (x : Gf) :
    valueAt f x = valueAt ((f.drop (0 * n)).take n) x +
      x ^ n * valueAt ((f.drop (1 * n)).take n) x +
      (x ^ n) ^ 2 * valueAt ((f.drop (2 * n)).take n) x +
      (x ^ n) ^ 3 * valueAt ((f.drop (3 * n)).take n) x := by
  have cut : ∀ k ≤ 3, valueAt (f.drop (k * n)) x =
      valueAt ((f.drop (k * n)).take n) x + x ^ n * valueAt (f.drop ((k + 1) * n)) x := by
    intro k hk
    have hn : ((f.drop (k * n)).take n).length = n := by
      have hkn : k * n ≤ 3 * n := Nat.mul_le_mul_right n hk
      rw [List.length_take, List.length_drop]
      omega
    conv_lhs => rw [← List.take_append_drop n (f.drop (k * n))]
    rw [valueAt_append, hn, List.drop_drop, Nat.succ_mul]
  have hlast : f.drop (4 * n) = [] := List.drop_eq_nil_of_le hf.le
  have h0 : valueAt f x = valueAt (f.drop (0 * n)) x := by rw [Nat.zero_mul, List.drop_zero]
  rw [h0, cut 0 (by decide), cut 1 (by decide), cut 2 (by decide), cut 3 le_rfl, hlast, valueAt_nil]
  ring

theorem radix_spec : ∀ (m : Nat) {f : List UInt16}, f.length = 2 ^ (m + 1) →
    (radix (m + 1) f).1.length = 2 ^ m ∧ (radix (m + 1) f).2.length = 2 ^ m ∧
      IsRadix f (radix (m + 1) f)
  | 0, _, h => ⟨rfl, rfl, isRadix_one h⟩
  | 1, _, h => ⟨rfl, rfl, isRadix_two h⟩
  | 2, _, h => ⟨rfl, rfl, isRadix_three h⟩
  | 3, _, h => ⟨rfl, rfl, isRadix_four h⟩
  | m + 4, f, hf => by
    let n := 2 ^ (m + 3)
    let part := fun i ↦ (f.drop (i * n)).take n
    let q := List.zipWith (· ^^^ ·) (part 3) (part 2)
    let r := List.zipWith (· ^^^ ·) (part 1) q
    have hfn : f.length = 4 * n := by
      rw [hf]
      ring
    have htwo : 2 ^ (m + 3 + 1) = n + n := by
      rw [pow_succ, mul_two]
    have hpart : ∀ i ≤ 3, (part i).length = n := by
      intro i hi
      have hin : i * n ≤ 3 * n := Nat.mul_le_mul_right n hi
      rw [List.length_take, List.length_drop]
      omega
    have hq : q.length = n := by
      rw [List.length_zipWith, hpart 3 le_rfl, hpart 2 (by decide), Nat.min_self]
    have hr : r.length = n := by
      rw [List.length_zipWith, hpart 1 (by decide), hq, Nat.min_self]
    obtain ⟨hq0, hq1, hqr⟩ := radix_spec (m + 3) (f := q ++ part 3) (by
      rw [List.length_append, hq, hpart 3 le_rfl, htwo])
    obtain ⟨hr0, hr1, hrr⟩ := radix_spec (m + 3) (f := part 0 ++ r) (by
      rw [List.length_append, hr, hpart 0 (by decide), htwo])
    have hradix : radix (m + 4 + 1) f =
        ((radix (m + 3 + 1) (part 0 ++ r)).1 ++ (radix (m + 3 + 1) (q ++ part 3)).1,
          (radix (m + 3 + 1) (part 0 ++ r)).2 ++ (radix (m + 3 + 1) (q ++ part 3)).2) := rfl
    rw [hradix]
    refine ⟨?_, ?_, fun x ↦ ?_⟩
    · rw [List.length_append, hq0, hr0, htwo]
    · rw [List.length_append, hq1, hr1, htwo]
    · have hy : artinSchreier x ^ n = (x ^ n) ^ 2 + x ^ n := by
        rw [artinSchreier_apply, add_pow_char_pow, ← pow_mul, mul_comm, pow_mul]
      have hqx := hqr x
      have hrx := hrr x
      rw [valueAt_append, hq, valueAt_zipWith_xor (by rw [hpart 3 le_rfl, hpart 2 (by decide)])]
        at hqx
      rw [valueAt_append, hpart 0 (by decide),
        valueAt_zipWith_xor (by rw [hpart 1 (by decide), hq]),
        valueAt_zipWith_xor (by rw [hpart 3 le_rfl, hpart 2 (by decide)])] at hrx
      rw [valueAt_parts hfn, valueAt_append, valueAt_append, hr0, hr1, hy]
      change valueAt (part 0) x + x ^ n * valueAt (part 1) x + (x ^ n) ^ 2 * valueAt (part 2) x +
        (x ^ n) ^ 3 * valueAt (part 3) x = _
      linear_combination hrx + ((x ^ n) ^ 2 + x ^ n) * hqx -
        (x ^ n * (valueAt (part 3) x + valueAt (part 2) x) + (x ^ n) ^ 2 * valueAt (part 3) x) *
          CharTwo.two_eq_zero (R := Gf)

theorem map_computeSubsetSums (l : List UInt16) :
    (computeSubsetSums l).map Gf.of = subsetSums (l.map Gf.of) := by
  induction l using List.reverseRecOn with
  | nil => rfl
  | append_singleton l a ih =>
    rw [List.map_append, List.map_singleton, subsetSums_concat, ← ih, computeSubsetSums,
      List.foldl_concat, ← computeSubsetSums, List.map_append, List.map_map, List.map_map]
    congr 2
    funext x
    exact Gf.of_xor a x

theorem valueAt_twistFrom (b : UInt16) (p : UInt16) (f : List UInt16) (x : Gf) :
    valueAt (twistFrom b p f) x = Gf.of p * Gf.of b * valueAt f (Gf.of b * x) := by
  induction f generalizing p with
  | nil => rw [twistFrom, valueAt_nil, valueAt_nil, mul_zero]
  | cons a f ih =>
    rw [twistFrom, valueAt_cons, ih, valueAt_cons, Gf.of_gfMul, Gf.of_gfMul]
    ring

theorem length_twistFrom (b : UInt16) (p : UInt16) (f : List UInt16) :
    (twistFrom b p f).length = f.length := by
  induction f generalizing p with
  | nil => rfl
  | cons a f ih => rw [twistFrom, List.length_cons, ih, List.length_cons]

theorem length_twist (b : UInt16) (f : List UInt16) : (twist b f).length = f.length := by
  unfold twist
  split_ifs
  · cases f with
    | nil => rfl
    | cons a f => exact congrArg (· + 1) (length_twistFrom b 1 f)
  · rfl

theorem valueAt_twist (b : UInt16) (f : List UInt16) (x : Gf) :
    valueAt (twist b f) x = valueAt f (Gf.of b * x) := by
  unfold twist
  split_ifs with h
  · cases f with
    | nil => rw [List.take_nil, List.drop_nil, twistFrom, List.append_nil, valueAt_nil, valueAt_nil]
    | cons a f =>
      change valueAt (a :: twistFrom b 1 f) x = _
      rw [valueAt_cons, valueAt_twistFrom, valueAt_cons, Gf.of_one]
      ring
  · rw [not_ne_iff.mp h, Gf.of_one, one_mul]

theorem fftCombine_eq {gammasSums u v : List UInt16} {U V : Gf → Gf}
    (h0 : gammasSums.getD 0 0 = 0) (hu : u.map Gf.of = (gammasSums.map Gf.of).map U)
    (hv : v.map Gf.of = (gammasSums.map Gf.of).map V) :
    (fftCombine gammasSums u v).map Gf.of =
      (gammasSums.map Gf.of).map (fun g ↦ U g + g * V g) ++
        (gammasSums.map Gf.of).map (fun g ↦ U g + (1 + g) * V g) := by
  have hul : u.length = gammasSums.length := by simpa using congrArg List.length hu
  have hvl : v.length = gammasSums.length := by simpa using congrArg List.length hv
  have hud : ∀ i < gammasSums.length, Gf.of (u.getD i 0) = U (Gf.of (gammasSums.getD i 0)) := by
    intro i hi
    have h := congrArg (fun l ↦ l[i]?) hu
    simpa [hi, hul] using h
  have hvd : ∀ i < gammasSums.length, Gf.of (v.getD i 0) = V (Gf.of (gammasSums.getD i 0)) := by
    intro i hi
    have h := congrArg (fun l ↦ l[i]?) hv
    simpa [hi, hvl] using h
  have hw : ∀ i < gammasSums.length,
      Gf.of (if i = 0 then u.getD 0 0
        else u.getD i 0 ^^^ gfMul (gammasSums.getD i 0) (v.getD i 0)) =
        U (Gf.of (gammasSums.getD i 0)) +
          Gf.of (gammasSums.getD i 0) * V (Gf.of (gammasSums.getD i 0)) := by
    intro i hi
    split_ifs with h
    · subst h
      rw [hud 0 hi, h0, Gf.of_zero, zero_mul, add_zero]
    · rw [Gf.of_xor, Gf.of_gfMul, hud i hi, hvd i hi]
  rw [fftCombine, List.map_append]
  congr 1
  · apply List.ext_getElem
    · simp
    · intro i h₁ h₂
      have hi : i < gammasSums.length := by simpa using h₁
      simpa [hi] using hw i hi
  · apply List.ext_getElem
    · simp [hvl]
    · intro i h₁ h₂
      have hi : i < gammasSums.length := by simpa using h₂
      have hvi : Gf.of (v.get ⟨i, by omega⟩) = V (Gf.of (gammasSums.getD i 0)) := by
        rw [← hvd i hi, List.getD_eq_getElem v 0 (by omega)]
        rfl
      have hgi : gammasSums.get ⟨i, hi⟩ = gammasSums.getD i 0 :=
        (List.getD_eq_getElem gammasSums 0 hi).symm
      simp only [List.getElem_map, List.getElem_zipWith, List.getElem_range, Gf.of_xor]
      refine (congrArg₂ (· + ·) hvi (hw i hi)).trans ?_
      change _ = U (Gf.of (gammasSums.get ⟨i, hi⟩)) +
        (1 + Gf.of (gammasSums.get ⟨i, hi⟩)) * V (Gf.of (gammasSums.get ⟨i, hi⟩))
      rw [hgi]
      ring

theorem fftRec_one {f : List UInt16} (hf : f.length = 2) (fCoeffs : Nat) (betas : List UInt16) :
    (fftRec 1 f fCoeffs betas).map Gf.of =
      (subsetSums (betas.map Gf.of)).map (valueAt f) := by
  match f, hf with
  | [a, b], _ =>
    have hline : valueAt [a, b] = fun x ↦ Gf.of a + x * Gf.of b := by
      funext x
      rw [valueAt_cons, valueAt_cons, valueAt_nil]
      ring
    rw [hline]
    induction betas using List.reverseRecOn with
    | nil =>
      change [Gf.of a] = [Gf.of a + 0 * Gf.of b]
      rw [zero_mul, add_zero]
    | append_singleton betas c ih =>
      rw [fftRec] at ih
      rw [fftRec, List.map_append, List.map_singleton, List.foldl_concat, List.map_append, ih,
        List.map_append, List.map_singleton, subsetSums_concat, List.map_append]
      congr 1
      rw [List.map_map, List.map_map]
      have ht : (Gf.of ∘ fun w ↦ w ^^^ gfMul c ([a, b].getD 1 0)) =
          (fun y ↦ y + Gf.of c * Gf.of b) ∘ Gf.of := by
        funext w
        simp
      rw [ht, ← List.map_map, ih, List.map_map]
      congr 1
      funext x
      change Gf.of a + x * Gf.of b + Gf.of c * Gf.of b = Gf.of a + (Gf.of c + x) * Gf.of b
      ring

theorem getD_computeSubsetSums_zero (l : List UInt16) : (computeSubsetSums l).getD 0 0 = 0 := by
  induction l using List.reverseRecOn with
  | nil => rfl
  | append_singleton l a ih =>
    rw [computeSubsetSums, List.foldl_concat, ← computeSubsetSums, List.getD_append _ _ _ _ (by
      rw [← List.length_map (f := Gf.of), map_computeSubsetSums, length_subsetSums]
      exact Nat.two_pow_pos _), ih]

theorem fftCombine_radix {g u v gammas : List UInt16} {U V : Gf → Gf}
    (hg : ∀ x, valueAt g x = U (artinSchreier x) + x * V (artinSchreier x))
    (hu : u.map Gf.of = (subsetSums ((gammas.map Gf.of).map artinSchreier)).map U)
    (hv : v.map Gf.of = (subsetSums ((gammas.map Gf.of).map artinSchreier)).map V) :
    (fftCombine (computeSubsetSums gammas) u v).map Gf.of =
      (subsetSums (gammas.map Gf.of ++ [1])).map (valueAt g) := by
  rw [subsetSums_map, ← map_computeSubsetSums, List.map_map] at hu hv
  rw [fftCombine_eq (getD_computeSubsetSums_zero gammas) hu hv, subsetSums_concat,
    ← map_computeSubsetSums, List.map_append]
  congr 1
  · congr 1
    funext x
    exact (hg x).symm
  · refine (congrArg (List.map · _) ?_).trans List.map_map.symm
    funext x
    change U (artinSchreier x) + (1 + x) * V (artinSchreier x) = valueAt g (1 + x)
    rw [hg, add_comm 1 x, artinSchreier_add_one]

/-- `fft_rec` evaluates at every sum of independent elements. -/
theorem fftRec_eq : ∀ (m : Nat) {f betas : List UInt16}, f.length = 2 ^ (m + 1) →
    m ≤ betas.length → (subsetSums (betas.map Gf.of)).Nodup →
      (fftRec (m + 1) f (2 ^ (m + 1)) betas).map Gf.of =
        (subsetSums (betas.map Gf.of)).map (valueAt f)
  | 0, _, _, hf, _, _ => fftRec_one hf _ _
  | m + 1, f, betas, hf, hlen, hind => by
    obtain ⟨l, b, rfl⟩ : ∃ l b, betas = l ++ [b] :=
      ⟨_, _, (List.dropLast_append_getLast (List.ne_nil_of_length_pos (by omega))).symm⟩
    rw [List.length_append, List.length_singleton] at hlen
    rw [List.map_append, List.map_singleton] at hind ⊢
    have hb : Gf.of b ≠ 0 := last_ne_zero hind
    let gammas := l.map (fun c ↦ gfMul c (gfInverse b))
    let r := radix (m + 2) (twist b f)
    let deltas := gammas.map (fun g ↦ gfSquare g ^^^ g)
    have hgammas : gammas.map Gf.of = (l.map Gf.of).map (· * (Gf.of b)⁻¹) := by
      simp [gammas, Function.comp_def]
    have hdeltas : deltas.map Gf.of = (gammas.map Gf.of).map artinSchreier := by
      simp [deltas, Function.comp_def, artinSchreier_apply]
    have htwo : 2 ^ (m + 1 + 1) = 2 * 2 ^ (m + 1) := by ring
    have hpos : 2 ≤ 2 ^ (m + 1) := by
      rw [pow_succ]
      exact Nat.le_mul_of_pos_left 2 (Nat.two_pow_pos m)
    have hrec : fftRec (m + 1 + 1) f (2 ^ (m + 1 + 1)) (l ++ [b]) =
        fftCombine (computeSubsetSums gammas) (fftRec (m + 1) r.1 (2 ^ (m + 1)) deltas)
          (fftRec (m + 1) r.2 (2 ^ (m + 1)) deltas) := by
      have h1 : (2 ^ (m + 1 + 1) + 1) / 2 = 2 ^ (m + 1) := by omega
      have h2 : 2 ^ (m + 1 + 1) / 2 = 2 ^ (m + 1) := by omega
      have h3 : ¬2 ^ (m + 1 + 1) ≤ 3 := by omega
      simp only [fftRec, h1, h2, h3, if_false, List.getLastD_concat, List.dropLast_concat]
      rfl
    obtain ⟨hr1, hr2, hr⟩ := radix_spec (m + 1) (f := twist b f) (by rw [length_twist, hf])
    have hdlen : m ≤ deltas.length := by
      simpa [deltas, gammas] using hlen
    have hdind : (subsetSums (deltas.map Gf.of)).Nodup := by
      have h := nodup_deltas hind
      rwa [hdeltas, hgammas, List.map_map]
    have hu := fftRec_eq m hr1 hdlen hdind
    have hv := fftRec_eq m hr2 hdlen hdind
    rw [hdeltas] at hu hv
    rw [hrec, fftCombine_radix hr hu hv, hgammas]
    have hsums : subsetSums ((l.map Gf.of).map (· * (Gf.of b)⁻¹) ++ [1]) =
        (subsetSums (l.map Gf.of ++ [Gf.of b])).map (· * (Gf.of b)⁻¹) := by
      rw [← mul_inv_cancel₀ hb]
      have h := subsetSums_map (AddMonoidHom.mulRight (Gf.of b)⁻¹) (l.map Gf.of ++ [Gf.of b])
      rw [List.map_append, List.map_singleton] at h
      exact h
    rw [hsums, List.map_map]
    congr 1
    funext x
    change valueAt (twist b f) (x * (Gf.of b)⁻¹) = _
    rw [valueAt_twist, mul_comm x, mul_inv_cancel_left₀ hb]

/-- The byte with its bits in the opposite order. -/
def bitReverse (n : Nat) : Nat := (List.range 8).foldl (fun r i ↦ 2 * r + (n >>> i) % 2) 0

theorem map_bitReverse_sums : (computeSubsetSums (computeFftBetas ++ [1])).map
    (fun a ↦ bitReverse a.toNat) = List.range 256 := by
  decide +kernel

theorem nodup_betas : (subsetSums (computeFftBetas.map Gf.of ++ [1])).Nodup := by
  have hlt : ∀ a ∈ computeSubsetSums (computeFftBetas ++ [1]), a.toNat < 256 :=
    forall_of_all (by decide +kernel)
  have hnodup : (computeSubsetSums (computeFftBetas ++ [1])).Nodup :=
    List.Nodup.of_map _ (map_bitReverse_sums ▸ List.nodup_range)
  have hof : (computeSubsetSums (computeFftBetas ++ [1])).map Gf.of =
      subsetSums (computeFftBetas.map Gf.of ++ [1]) := map_computeSubsetSums _
  rw [← hof]
  refine hnodup.map_on fun a ha b hb h ↦ ?_
  exact (congrArg Gf.val (Gf.of_val ⟨a, hlt a ha⟩)).symm.trans
    ((congrArg Gf.val h).trans (congrArg Gf.val (Gf.of_val ⟨b, hlt b hb⟩)))

/-- `PQCLEAN_HQC128_CLEAN_fft` evaluates its polynomial at every element of the field. -/
theorem fft_eq {f : List UInt16} (hf : f.length = 16) :
    (fft f 16).map Gf.of = (subsetSums (computeFftBetas.map Gf.of ++ [1])).map (valueAt f) := by
  obtain ⟨hr1, hr2, hr⟩ := radix_spec 3 hf
  have hdeltas : (computeFftBetas.map (fun b ↦ gfSquare b ^^^ b)).map Gf.of =
      (computeFftBetas.map Gf.of).map artinSchreier := by
    simp [Function.comp_def, artinSchreier_apply]
  have hdind : (subsetSums ((computeFftBetas.map (fun b ↦ gfSquare b ^^^ b)).map Gf.of)).Nodup := by
    have h := nodup_deltas nodup_betas
    simp only [inv_one, mul_one] at h
    rwa [hdeltas]
  have hu := fftRec_eq 2 hr1 (by decide) hdind
  have hv := fftRec_eq 2 hr2 (by decide) hdind
  rw [hdeltas] at hu hv
  exact fftCombine_radix hr hu hv

end KemtlsMavlink.Hqc
