import Mathlib
import Triage.Files.Path

/-!
# The way up from a path

A path is told by its parts between the slashes. Its parent lacks the last of its names, and is
absolute when the path is. So the paths above a path, nearest first, lose one name after the other
until no name is left: the root, or the empty path that stands for the working directory.
-/

namespace Triage.Files

/-! ### Parts -/

theorem splitSlashes_append {n : Name} (hn : slash ∉ n) (bs : List UInt8) :
    splitSlashes (n ++ slash :: bs) = n :: splitSlashes bs := by
  induction n with
  | nil => rw [List.nil_append, splitSlashes, if_pos rfl]
  | cons b n ih =>
    have hb := List.ne_of_not_mem_cons hn
    have hn := List.not_mem_of_not_mem_cons hn
    rw [List.cons_append, splitSlashes, if_neg (Ne.symm hb), ih hn]

theorem splitSlashes_of_not_mem {n : Name} (hn : slash ∉ n) : splitSlashes n = [n] := by
  induction n with
  | nil => rfl
  | cons b n ih =>
    have hb := List.ne_of_not_mem_cons hn
    have hn := List.not_mem_of_not_mem_cons hn
    rw [splitSlashes, if_neg (Ne.symm hb), ih hn]

theorem splitSlashes_ne_nil (bs : List UInt8) : splitSlashes bs ≠ [] := by
  cases bs with
  | nil => simp [splitSlashes]
  | cons b bs =>
    rw [splitSlashes]
    split
    · simp
    · split <;> simp

theorem slash_not_mem_of_mem (bs : List UInt8) : ∀ n ∈ splitSlashes bs, slash ∉ n := by
  induction bs with
  | nil => simp [splitSlashes]
  | cons b bs ih =>
    rw [splitSlashes]
    split
    · exact List.forall_mem_cons.mpr ⟨List.not_mem_nil, ih⟩
    · rename_i hb
      split
      · simpa using Ne.symm hb
      · rename_i n ns hsplit
        rw [hsplit] at ih
        obtain ⟨hn, hns⟩ := List.forall_mem_cons.mp ih
        exact List.forall_mem_cons.mpr ⟨List.not_mem_cons_of_ne_of_not_mem (Ne.symm hb) hn, hns⟩

/-- Parts without slashes are found again between the slashes. -/
theorem splitSlashes_joinSlashes {n : Name} {ns : List Name} (h : ∀ m ∈ n :: ns, slash ∉ m) :
    splitSlashes (joinSlashes (n :: ns)) = n :: ns := by
  induction ns generalizing n with
  | nil => exact splitSlashes_of_not_mem (h n List.mem_cons_self)
  | cons m ns ih =>
    obtain ⟨hn, hns⟩ := List.forall_mem_cons.mp h
    rw [joinSlashes, splitSlashes_append hn, ih hns]

/-- A text has no more parts that are not empty than bytes. -/
theorem length_filter_splitSlashes (bs : List UInt8) :
    ((splitSlashes bs).filter (· != [])).length ≤ bs.length := by
  induction bs with
  | nil => simp [splitSlashes]
  | cons b bs ih =>
    rw [splitSlashes]
    split
    · simpa using Nat.le_succ_of_le ih
    · split
      · simp
      · rename_i n ns hsplit
        rw [hsplit] at ih
        have hrest : (ns.filter (· != [])).length ≤ ((n :: ns).filter (· != [])).length :=
          ((List.sublist_cons_self n ns).filter _).length_le
        simp only [bne_iff_ne, ne_eq, reduceCtorEq, not_false_eq_true, List.filter_cons_of_pos,
          List.length_cons]
        omega

namespace Path

variable {p q : Path} {first : Name} {rest : List Name}

theorem exists_parts (p : Path) : ∃ first rest, splitSlashes p.bytes = first :: rest :=
  List.exists_cons_of_ne_nil (splitSlashes_ne_nil p.bytes)

theorem names_eq (h : splitSlashes p.bytes = first :: rest) :
    p.names = (if first = [] then [] else [first]) ++ rest.filter isSignificant := by
  rw [names, h]

theorem isAbsolute_iff (h : splitSlashes p.bytes = first :: rest) :
    p.isAbsolute = true ↔ first = [] ∧ rest ≠ [] := by
  obtain ⟨bytes⟩ := p
  cases bytes with
  | nil =>
    obtain ⟨rfl, rfl⟩ := List.cons.inj h
    simp [isAbsolute]
  | cons b bs =>
    simp only [splitSlashes] at h
    by_cases hb : b = slash
    · rw [if_pos hb] at h
      obtain ⟨rfl, rfl⟩ := List.cons.inj h
      simp [isAbsolute, hb, splitSlashes_ne_nil bs]
    · rw [if_neg hb] at h
      have hfirst : first ≠ [] := by
        split at h
        · obtain ⟨rfl, -⟩ := List.cons.inj h
          simp
        · obtain ⟨rfl, -⟩ := List.cons.inj h
          simp
      simp [isAbsolute, hb, hfirst]

/-! ### Parents -/

/-- The path of some parts; it begins with a slash when the first of them is empty. -/
def ofParts (first : Name) (rest : List Name) : Path :=
  if first = [] ∧ rest = [] then ⟨[slash]⟩ else ⟨joinSlashes (first :: rest)⟩

/-- The path of `ofParts` begins with a slash, however many parts follow an empty first one. -/
theorem ofParts_spec (h : ∀ m ∈ first :: rest, slash ∉ m) :
    (ofParts first rest).names = (if first = [] then [] else [first]) ++
        rest.filter isSignificant ∧
      ((ofParts first rest).isAbsolute = true ↔ first = []) := by
  unfold ofParts
  split
  · rename_i hroot
    obtain ⟨rfl, rfl⟩ := hroot
    exact ⟨rfl, by decide⟩
  · rename_i hnot
    have hsplit : splitSlashes (joinSlashes (first :: rest)) = first :: rest :=
      splitSlashes_joinSlashes h
    refine ⟨names_eq hsplit, ?_⟩
    rw [isAbsolute_iff hsplit]
    tauto

theorem trimmedParts_append (l : List Name) (n : Name) :
    trimmedParts (l ++ [n]) = l.dropWhile (!isSignificant ·) ++ [n] := by
  induction l with
  | nil => rfl
  | cons m l ih =>
    obtain ⟨x, xs, hx⟩ := List.exists_cons_of_ne_nil (List.append_ne_nil_of_right_ne_nil l
      (List.cons_ne_nil n []))
    rw [List.cons_append, hx, trimmedParts, ← hx, ih]
    by_cases hm : isSignificant m = true
    · simp [hm]
    · simp [hm]

theorem filter_dropWhile (l : List Name) :
    (l.dropWhile (!isSignificant ·)).filter isSignificant = l.filter isSignificant := by
  induction l with
  | nil => rfl
  | cons n l ih =>
    by_cases hn : isSignificant n = true
    · rw [List.dropWhile_cons_of_neg (by simp [hn])]
    · rw [List.dropWhile_cons_of_pos (by simpa using hn), List.filter_cons_of_neg hn, ih]

/-- The parts behind the first one, without those at the end that mean nothing: either none is left,
or a name is the last one. -/
theorem trimmed_cases (rest : List Name) :
    (rest.reverse.dropWhile (!isSignificant ·) = [] ∧ rest.filter isSignificant = []) ∨
      ∃ last more, rest.reverse.dropWhile (!isSignificant ·) = last :: more ∧
        isSignificant last = true ∧ (∀ m ∈ more, m ∈ rest) ∧
        rest.filter isSignificant = more.reverse.filter isSignificant ++ [last] := by
  have hfilter : rest.filter isSignificant =
      ((rest.reverse.dropWhile (!isSignificant ·)).filter isSignificant).reverse := by
    rw [filter_dropWhile, List.filter_reverse, List.reverse_reverse]
  cases htrimmed : rest.reverse.dropWhile (!isSignificant ·) with
  | nil => exact Or.inl ⟨rfl, by rw [hfilter, htrimmed]; rfl⟩
  | cons last more =>
    have hlast : isSignificant last = true := by
      have hhead := List.head?_dropWhile_not (!isSignificant ·) rest.reverse
      rw [htrimmed] at hhead
      simpa using hhead
    refine Or.inr ⟨last, more, rfl, hlast, fun m hm => ?_, ?_⟩
    · have hmem : m ∈ rest.reverse.dropWhile (!isSignificant ·) := by
        rw [htrimmed]
        exact List.mem_cons_of_mem last hm
      exact List.mem_reverse.mp ((List.dropWhile_sublist _).subset hmem)
    · rw [hfilter, htrimmed, List.filter_cons_of_pos hlast, List.reverse_cons, List.filter_reverse]

theorem parent?_of_trimmed_nil (hparts : splitSlashes p.bytes = first :: rest)
    (htrimmed : rest.reverse.dropWhile (!isSignificant ·) = []) :
    p.parent? = if first = [] then none else some ⟨[]⟩ := by
  rw [parent?, hparts, List.reverse_cons, trimmedParts_append, htrimmed]
  rfl

theorem parent?_of_trimmed_cons (hparts : splitSlashes p.bytes = first :: rest) {last : Name}
    {more : List Name} (htrimmed : rest.reverse.dropWhile (!isSignificant ·) = last :: more) :
    p.parent? = some (ofParts first (more.dropWhile (!isSignificant ·)).reverse) := by
  obtain ⟨x, xs, hx⟩ := List.exists_cons_of_ne_nil (List.append_ne_nil_of_right_ne_nil more
    (List.cons_ne_nil first []))
  rw [parent?, hparts, List.reverse_cons, trimmedParts_append, htrimmed, List.cons_append, hx]
  dsimp only
  rw [← hx, trimmedParts_append]
  unfold ofParts
  cases more.dropWhile (!isSignificant ·) with
  | nil => cases first <;> rfl
  | cons y ys => simp

/-- A path has a parent exactly when it has a name. The parent lacks the last name of the path, and
is absolute if the path is. -/
theorem parent?_cases (p : Path) :
    (p.parent? = none ∧ p.names = []) ∨
      ∃ q, p.parent? = some q ∧ p.names ≠ [] ∧ q.names = p.names.dropLast ∧
        q.isAbsolute = p.isAbsolute := by
  obtain ⟨first, rest, hparts⟩ := exists_parts p
  have hslash := slash_not_mem_of_mem p.bytes
  rw [hparts] at hslash
  obtain ⟨hfirst, hrest⟩ := List.forall_mem_cons.mp hslash
  rw [names_eq hparts]
  rcases trimmed_cases rest with ⟨htrimmed, hnames⟩ | ⟨last, more, htrimmed, hlast, hmore, hnames⟩
  · -- Only the first part may be a name. If it is empty, the path is empty or the root.
    rw [parent?_of_trimmed_nil hparts htrimmed, hnames]
    by_cases hempty : first = []
    · exact Or.inl (by simp [hempty])
    · have hrelative : p.isAbsolute = false := by
        rw [← Bool.not_eq_true, isAbsolute_iff hparts]
        exact fun h => hempty h.1
      exact Or.inr ⟨⟨[]⟩, by simp [hempty], by simp [hempty], by simp [hempty, names, splitSlashes],
        hrelative.symm⟩
  · -- The last name goes, and so do the parts before it that mean nothing.
    have hparents : ∀ m ∈ first :: (more.dropWhile (!isSignificant ·)).reverse, slash ∉ m := by
      refine List.forall_mem_cons.mpr ⟨hfirst, fun m hm => hrest m (hmore m ?_)⟩
      exact (List.dropWhile_sublist _).subset (List.mem_reverse.mp hm)
    obtain ⟨hqnames, hqabsolute⟩ := ofParts_spec hparents
    have hrestNe : rest ≠ [] := by
      rintro rfl
      cases htrimmed
    refine Or.inr ⟨_, parent?_of_trimmed_cons hparts htrimmed, by simp [hnames], ?_, ?_⟩
    · rw [hqnames, hnames, ← List.append_assoc, List.dropLast_concat, List.filter_reverse,
        List.filter_reverse, filter_dropWhile]
    · rw [Bool.eq_iff_iff, hqabsolute, isAbsolute_iff hparts]
      exact ⟨fun h => ⟨h, hrestNe⟩, And.left⟩

theorem length_names_le (p : Path) : p.names.length ≤ p.bytes.length := by
  obtain ⟨first, rest, hparts⟩ := exists_parts p
  have hlength := length_filter_splitSlashes p.bytes
  have hrest : (rest.filter isSignificant).length ≤ (rest.filter (· != [])).length := by
    have himp : ∀ n : Name, isSignificant n = true → (n != []) = true := fun n hn =>
      (Bool.and_eq_true_iff.mp hn).1
    exact (List.monotone_filter_right rest himp).length_le
  have hall : ((first :: rest).filter (· != [])).length =
      (if first = [] then [] else [first]).length + (rest.filter (· != [])).length := by
    by_cases hfirst : first = [] <;> simp [hfirst, Nat.add_comm]
  rw [hparts] at hlength
  rw [names_eq hparts, List.length_append]
  omega

/-- A relative path without a name is the empty one. -/
theorem bytes_of_names_nil (hrelative : p.isAbsolute = false) (hnames : p.names = []) :
    p.bytes = [] := by
  obtain ⟨bytes⟩ := p
  cases bytes with
  | nil => rfl
  | cons b bs =>
    have hb : b ≠ slash := by
      rintro rfl
      cases hrelative
    rw [names, splitSlashes, if_neg hb] at hnames
    split at hnames
    · rename_i h
      split at h <;> cases h
    · rename_i n ns h
      split at h
      · obtain ⟨rfl, -⟩ := List.cons.inj h
        simp at hnames
      · obtain ⟨rfl, -⟩ := List.cons.inj h
        simp at hnames

theorem names_of_no_parent (h : p.parent? = none) : p.names = [] := by
  rcases parent?_cases p with ⟨-, hnames⟩ | ⟨q, hq, -⟩
  · exact hnames
  · rw [h] at hq
    cases hq

theorem names_of_parent (h : p.parent? = some q) :
    p.names ≠ [] ∧ q.names = p.names.dropLast ∧ q.isAbsolute = p.isAbsolute := by
  rcases parent?_cases p with ⟨hnone, -⟩ | ⟨r, hr, hspec⟩
  · rw [h] at hnone
    cases hnone
  · obtain rfl := Option.some.inj (h.symm.trans hr)
    exact hspec

theorem length_names_of_parent (h : p.parent? = some q) : q.names.length < p.names.length := by
  obtain ⟨hne, hnames, -⟩ := names_of_parent h
  have hpos := List.length_pos_iff.mpr hne
  rw [hnames, List.length_dropLast]
  omega

/-! ### All paths above a path -/

/-- What holds where there is no parent, and passes from a parent to its path, holds always. -/
theorem parent_induction {motive : Path → Prop} (top : ∀ p, p.parent? = none → motive p)
    (up : ∀ p q, p.parent? = some q → motive q → motive p) (p : Path) : motive p := by
  generalize hn : p.names.length = n
  induction n using Nat.strongRecOn generalizing p with
  | ind n ih =>
    cases h : p.parent? with
    | none => exact top p h
    | some q => exact up p q h (ih _ (hn ▸ length_names_of_parent h) q rfl)

/-- More fuel than names changes nothing. -/
theorem upward_eq {fuel fuel' : Nat} (h : p.names.length < fuel) (h' : p.names.length < fuel') :
    upward fuel p = upward fuel' p := by
  induction fuel generalizing p fuel' with
  | zero => omega
  | succ fuel ih =>
    obtain ⟨fuel', rfl⟩ := Nat.exists_eq_succ_of_ne_zero (Nat.ne_zero_of_lt h')
    rw [upward, upward]
    cases hq : p.parent? with
    | none => rfl
    | some q =>
      have hlength := length_names_of_parent hq
      exact congrArg (p :: ·) (ih (by omega) (by omega))

theorem ancestors_of_no_parent (h : p.parent? = none) : p.ancestors = [p] := by
  rw [ancestors, upward, h]

theorem ancestors_of_parent (h : p.parent? = some q) : p.ancestors = p :: q.ancestors := by
  have hlength := length_names_of_parent h
  have hp := length_names_le p
  have hq := length_names_le q
  rw [ancestors, upward, h, ancestors]
  exact congrArg (p :: ·) (upward_eq (by omega) (by omega))

theorem inits_reverse_of_ne_nil {ns : List Name} (h : ns ≠ []) :
    ns.inits.reverse = ns :: ns.dropLast.inits.reverse := by
  obtain ⟨init, last, rfl⟩ := List.eq_nil_or_concat ns |>.resolve_left h
  rw [List.concat_eq_append, List.dropLast_concat, List.inits_append]
  simp

/-- The way up loses the last name at each step, and ends when there is none left. -/
theorem names_ancestors (p : Path) : p.ancestors.map names = p.names.inits.reverse := by
  induction p using parent_induction with
  | top p h => simp [ancestors_of_no_parent h, names_of_no_parent h]
  | up p q h ih =>
    obtain ⟨hne, hnames, -⟩ := names_of_parent h
    rw [ancestors_of_parent h, List.map_cons, ih, inits_reverse_of_ne_nil hne, hnames]

theorem isAbsolute_of_mem_ancestors : ∀ q ∈ p.ancestors, q.isAbsolute = p.isAbsolute := by
  induction p using parent_induction with
  | top p h => simp [ancestors_of_no_parent h]
  | up p q h ih =>
    rw [ancestors_of_parent h]
    refine List.forall_mem_cons.mpr ⟨rfl, fun r hr => ?_⟩
    rw [ih r hr, (names_of_parent h).2.2]

theorem head?_ancestors (p : Path) : p.ancestors.head? = some p := by
  cases h : p.parent? with
  | none => rw [ancestors_of_no_parent h]; rfl
  | some q => rw [ancestors_of_parent h]; rfl

/-- Each path on the way up is the parent of the one before. -/
theorem isChain_ancestors (p : Path) : p.ancestors.IsChain fun q r => q.parent? = some r := by
  induction p using parent_induction with
  | top p h => simp [ancestors_of_no_parent h]
  | up p q h ih =>
    rw [ancestors_of_parent h]
    refine List.IsChain.cons ih fun r hr => ?_
    rw [head?_ancestors] at hr
    exact h.trans hr

theorem exists_top (p : Path) : ∃ top, p.ancestors.getLast? = some top ∧ top.parent? = none ∧
    top.names = [] ∧ (p.isAbsolute = false → top.bytes = []) := by
  induction p using parent_induction with
  | top p h =>
    have hnames := names_of_no_parent h
    exact ⟨p, by rw [ancestors_of_no_parent h]; rfl, h, hnames,
      fun hrelative => bytes_of_names_nil hrelative hnames⟩
  | up p q h ih =>
    obtain ⟨top, hlast, hspec⟩ := ih
    refine ⟨top, ?_, ?_⟩
    · rw [ancestors_of_parent h, List.getLast?_cons, hlast]
      rfl
    · rwa [(names_of_parent h).2.2] at hspec

/-- The way up from a path: each path is the parent of the one before, with one name less and as
absolute as that one, until there is neither a name nor a parent. -/
structure IsWayUp (p : Path) (way : List Path) : Prop where
  head : way.head? = some p
  parents : way.IsChain fun q r => q.parent? = some r
  names : way.map names = p.names.inits.reverse
  absolute : ∀ q ∈ way, q.isAbsolute = p.isAbsolute
  top : ∃ top, way.getLast? = some top ∧ top.parent? = none ∧ top.names = [] ∧
    (p.isAbsolute = false → top.bytes = [])

theorem isWayUp_ancestors (p : Path) : p.IsWayUp p.ancestors where
  head := head?_ancestors p
  parents := isChain_ancestors p
  names := names_ancestors p
  absolute := isAbsolute_of_mem_ancestors
  top := exists_top p

end Path

end Triage.Files
