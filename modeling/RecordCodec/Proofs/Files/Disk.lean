import RecordCodec.Files.Disk
import RecordCodec.Proofs.Files.Path

/-!
This module contains the theory of disks. A disk is looked at through `get?`: what each change does
to the entries, which changes keep the ways that path texts take, and what making directories leaves.
-/

namespace RecordCodec.Files

open RecordCodec.Text

def Entry.isWay : Entry → Bool
  | .file _ => false
  | _ => true

namespace Disk

variable {d d' : Disk} {p q : Place}

/-! Entries. -/

theorem get?_of_ne_nil (hp : p ≠ []) : d.get? p = d.entries.lookup p := by
  unfold get?
  rw [if_neg (by simpa using hp)]

theorem lookup_cons_eq (k : Place) (e : Entry) (entries : List (Place × Entry)) (q : Place) :
    ((k, e) :: entries).lookup q = if q = k then some e else entries.lookup q := by
  rw [List.lookup_cons]
  by_cases h : q = k
  · rw [if_pos h, h, beq_self_eq_true]
  · rw [if_neg h, beq_false_of_ne h]

theorem lookup_filter_ne (entries : List (Place × Entry)) (p q : Place) :
    (entries.filter (·.1 != p)).lookup q = if q = p then none else entries.lookup q := by
  induction entries with
  | nil => simp
  | cons entry entries ih =>
    rcases entry with ⟨k, e⟩
    by_cases hk : k = p
    · subst hk
      rw [List.filter_cons_of_neg (by simp), ih, lookup_cons_eq]
      by_cases hq : q = k
      · rw [if_pos hq, if_pos hq]
      · rw [if_neg hq, if_neg hq, if_neg hq]
    · rw [List.filter_cons_of_pos (by simpa using hk), lookup_cons_eq, lookup_cons_eq, ih]
      by_cases hq : q = k
      · subst hq
        rw [if_pos rfl, if_neg hk, if_pos rfl]
      · rw [if_neg hq, if_neg hq]

theorem get?_put (hp : p ≠ []) (e : Entry) (q : Place) :
    (d.put p e).get? q = if q = p then some e else d.get? q := by
  by_cases hq : q = []
  · subst hq
    rw [if_neg (Ne.symm hp)]
    rfl
  · rw [get?_of_ne_nil hq, get?_of_ne_nil hq, put, List.lookup_append, lookup_filter_ne,
      lookup_cons_eq]
    by_cases hpq : q = p
    · simp [hpq]
    · simp [hpq]

theorem get?_erase (hp : p ≠ []) (q : Place) :
    (d.erase p).get? q = if q = p then none else d.get? q := by
  by_cases hq : q = []
  · subst hq
    rw [if_neg (Ne.symm hp)]
    rfl
  · rw [get?_of_ne_nil hq, get?_of_ne_nil hq, erase, lookup_filter_ne]

theorem lookup_map_rename {entries : List (Place × Entry)} (hpq : p ≠ q)
    (hbelow : ∀ entry ∈ entries, p.isPrefixOf entry.1 = true → entry.1 = p)
    (hfree : ∀ entry ∈ entries, entry.1 ≠ q) (r : Place) :
    (entries.map fun (k, e) =>
        if p.isPrefixOf k then (q ++ k.drop p.length, e) else (k, e)).lookup r =
      if r = q then entries.lookup p else if r = p then none else entries.lookup r := by
  induction entries with
  | nil => simp
  | cons entry entries ih =>
    rcases entry with ⟨k, e⟩
    have hrest := ih (fun other hother => hbelow other (List.mem_cons_of_mem _ hother))
      (fun other hother => hfree other (List.mem_cons_of_mem _ hother))
    have hkq : k ≠ q := hfree (k, e) (List.mem_cons_self ..)
    rw [List.map_cons]
    dsimp only
    by_cases hk : k = p
    · subst hk
      rw [if_pos (by simp), List.drop_length, List.append_nil, lookup_cons_eq, lookup_cons_eq,
        lookup_cons_eq, hrest, if_pos rfl]
      by_cases hr : r = q
      · rw [if_pos hr, if_pos hr]
      · by_cases hrk : r = k
        · rw [if_neg hr, if_neg hr, if_neg hr, if_pos hrk, if_pos hrk]
        · rw [if_neg hr, if_neg hr, if_neg hr, if_neg hrk, if_neg hrk, if_neg hrk]
    · have hbegins : p.isPrefixOf k = false := by
        rw [← Bool.not_eq_true]
        exact fun h => hk (hbelow (k, e) (List.mem_cons_self ..) h)
      rw [if_neg (by simp [hbegins]), lookup_cons_eq, lookup_cons_eq, lookup_cons_eq, hrest,
        if_neg (Ne.symm hk)]
      by_cases hr : r = k
      · subst hr
        rw [if_pos rfl, if_neg hkq, if_neg hk, if_pos rfl]
      · rw [if_neg hr, if_neg hr]

theorem get?_move (hp : p ≠ []) (hq : q ≠ []) (hpq : p ≠ q)
    (hleaf : ∀ below, below ≠ [] → d.get? (p ++ below) = none) (r : Place) :
    (d.move p q).get? r = if r = q then d.get? p else if r = p then none else d.get? r := by
  have hbelow : ∀ entry ∈ (d.erase q).entries, p.isPrefixOf entry.1 = true → entry.1 = p := by
    rintro ⟨k, e⟩ hentry hbegins
    obtain ⟨below, rfl⟩ := List.isPrefixOf_iff_prefix.1 hbegins
    by_cases hnil : below = []
    · rw [hnil, List.append_nil]
    · have hnone := hleaf below hnil
      rw [get?_of_ne_nil (by simp [hp]), List.lookup_eq_none_iff] at hnone
      have := hnone _ (List.mem_filter.1 hentry).1
      simp at this
  have hfree : ∀ entry ∈ (d.erase q).entries, entry.1 ≠ q := by
    intro entry hentry
    simpa using (List.mem_filter.1 hentry).2
  by_cases hr : r = []
  · subst hr
    rw [if_neg (Ne.symm hq), if_neg (Ne.symm hp)]
    rfl
  · rw [get?_of_ne_nil hr, get?_of_ne_nil hr, get?_of_ne_nil hp, move,
      lookup_map_rename hpq hbelow hfree, erase, lookup_filter_ne, lookup_filter_ne, if_neg hpq]
    by_cases hrq : r = q
    · simp [hrq]
    · simp [hrq]

/-! Trees. -/

structure IsTree (d : Disk) : Prop where
  home : d.get? d.home = some .directory
  parent : ∀ dir name e, d.get? (dir ++ [name]) = some e → d.get? dir = some .directory

theorem mem_of_get?_append {dir : Place} {name : String} {e : Entry}
    (h : d.get? (dir ++ [name]) = some e) : (dir ++ [name], e) ∈ d.entries := by
  rw [get?_of_ne_nil (by simp)] at h
  obtain ⟨before, after, heq, -⟩ := List.lookup_eq_some_iff.1 h
  simp [heq]

theorem isTree_of_entries (hhome : d.get? d.home = some .directory)
    (h : ∀ entry ∈ d.entries, d.get? entry.1.dropLast = some .directory) : d.IsTree := by
  refine ⟨hhome, fun dir name e he => ?_⟩
  have hparent := h _ (mem_of_get?_append he)
  rwa [List.dropLast_concat] at hparent

theorem IsTree.leaf (h : d.IsTree) (hp : d.get? p ≠ some .directory) (below : Place)
    (hbelow : below ≠ []) : d.get? (p ++ below) = none := by
  induction below using List.reverseRecOn with
  | nil => contradiction
  | append_singleton below name ih =>
    rw [← List.append_assoc]
    cases hget : d.get? (p ++ below ++ [name]) with
    | none => rfl
    | some e =>
      have hparent := h.parent _ _ _ hget
      by_cases hnil : below = []
      · rw [hnil, List.append_nil] at hparent
        exact absurd hparent hp
      · rw [ih hnil] at hparent
        contradiction

theorem IsTree.put {dir : Place} {name : String} (h : d.IsTree)
    (hdir : d.get? dir = some .directory) (hfree : d.get? (dir ++ [name]) = none) (e : Entry) :
    (d.put (dir ++ [name]) e).IsTree := by
  have hget := get?_put (d := d) (p := dir ++ [name]) (by simp) e
  have hkeeps : ∀ p, d.get? p = some .directory →
      (d.put (dir ++ [name]) e).get? p = some .directory := by
    intro p hp
    rw [hget, if_neg, hp]
    rintro rfl
    rw [hfree] at hp
    contradiction
  refine ⟨hkeeps _ h.home, ?_⟩
  intro dir' name' e' he'
  rw [hget] at he'
  split at he'
  · next heq =>
    obtain ⟨rfl, -⟩ := List.append_inj' heq rfl
    exact hkeeps _ hdir
  · exact hkeeps _ (h.parent _ _ _ he')

/-! Ways. -/

theorem directory?_eq_some {path : String} :
    d.directory? path = some p ↔ d.status path = .directory p := by
  unfold directory?
  cases d.status path <;> simp

theorem directory?_eq_some_iff {path : String} : d.directory? path = some p ↔ isPath path = true ∧
    d.arrive maxLinks (if isRooted path then [] else d.home) (components path) = .directory p := by
  rw [directory?_eq_some, status]
  by_cases hpath : isPath path = true
  · simp [hpath]
  · simp [hpath]

structure KeepsWays (d d' : Disk) : Prop where
  home : d'.home = d.home
  ways : ∀ p e, d.get? p = some e → e.isWay = true → d'.get? p = some e

theorem KeepsWays.refl (d : Disk) : d.KeepsWays d :=
  ⟨rfl, fun _ _ hp _ => hp⟩

theorem KeepsWays.follow (h : d.KeepsWays d') (names : List String) (dir : Place) :
    (∀ p, d.follow dir names = .directory p → d'.follow dir names = .directory p) ∧
    ∀ at' target rest, d.follow dir names = .link at' target rest →
      d'.follow dir names = .link at' target rest := by
  induction names generalizing dir with
  | nil => simp [Disk.follow]
  | cons name names ih =>
    unfold Disk.follow
    split
    · exact ih dir
    · split
      · exact ih dir.dropLast
      · split
        · simp
        · cases hget : d.get? (dir ++ [name]) with
          | none => simp
          | some e =>
            cases e with
            | directory =>
              rw [h.ways _ _ hget rfl]
              exact ih _
            | file text =>
              dsimp only
              split <;> simp
            | link target =>
              rw [h.ways _ _ hget rfl]
              simp

theorem KeepsWays.arrive (h : d.KeepsWays d') {links : Nat} {dir : Place} {names : List String}
    (harrive : d.arrive links dir names = .directory p) :
    d'.arrive links dir names = .directory p := by
  induction links generalizing dir names with
  | zero =>
    unfold Disk.arrive at harrive ⊢
    cases hfollow : d.follow dir names with
    | directory =>
      rw [hfollow] at harrive
      rw [(h.follow names dir).1 _ hfollow]
      exact harrive
    | _ => simp [hfollow] at harrive
  | succ links ih =>
    unfold Disk.arrive at harrive ⊢
    cases hfollow : d.follow dir names with
    | directory =>
      rw [hfollow] at harrive
      rw [(h.follow names dir).1 _ hfollow]
      exact harrive
    | link dir' target rest =>
      rw [hfollow] at harrive
      rw [(h.follow names dir).2 _ _ _ hfollow]
      dsimp only at harrive ⊢
      split at harrive
      · next hpath =>
        rw [if_pos hpath]
        exact ih harrive
      · contradiction
    | _ => simp [hfollow] at harrive

theorem KeepsWays.directory? (h : d.KeepsWays d') {path : String}
    (hdir : d.directory? path = some p) : d'.directory? path = some p := by
  rw [directory?_eq_some_iff] at hdir ⊢
  rw [h.home]
  exact ⟨hdir.1, h.arrive hdir.2⟩

theorem IsTree.dropLast (h : d.IsTree) (hp : d.get? p = some .directory) :
    d.get? p.dropLast = some .directory := by
  rcases List.eq_nil_or_concat p with rfl | ⟨dir, name, rfl⟩
  · exact hp
  · rw [List.concat_eq_append] at hp ⊢
    rw [List.dropLast_concat]
    exact h.parent _ _ _ hp

theorem IsTree.follow (h : d.IsTree) {dir : Place} (hdir : d.get? dir = some .directory)
    (names : List String) :
    (∀ p, d.follow dir names = .directory p → d.get? p = some .directory) ∧
    ∀ at' target rest, d.follow dir names = .link at' target rest →
      d.get? at' = some .directory := by
  induction names generalizing dir with
  | nil =>
    unfold Disk.follow
    simp [hdir]
  | cons name names ih =>
    unfold Disk.follow
    split
    · exact ih hdir
    · split
      · exact ih (h.dropLast hdir)
      · split
        · simp
        · split
          · next hget => exact ih hget
          · split <;> simp
          · simp [hdir]
          · simp

theorem IsTree.arrive (h : d.IsTree) {links : Nat} {dir : Place} {names : List String}
    (hdir : d.get? dir = some .directory) (harrive : d.arrive links dir names = .directory p) :
    d.get? p = some .directory := by
  induction links generalizing dir names with
  | zero =>
    unfold Disk.arrive at harrive
    split at harrive
    · contradiction
    · contradiction
    · exact (h.follow hdir names).1 _ harrive
  | succ links ih =>
    unfold Disk.arrive at harrive
    split at harrive
    · next hfollow hlinks =>
      cases hlinks
      split at harrive
      · refine ih ?_ harrive
        split
        · rfl
        · exact (h.follow hdir names).2 _ _ _ hfollow
      · contradiction
    · contradiction
    · exact (h.follow hdir names).1 _ harrive

theorem IsTree.directory? (h : d.IsTree) {path : String} (hdir : d.directory? path = some p) :
    d.get? p = some .directory := by
  refine h.arrive ?_ (directory?_eq_some_iff.1 hdir).2
  split
  · rfl
  · exact h.home

theorem follow_append (dir : Place) (xs ys : List String) :
    d.follow dir (xs ++ ys) =
      match d.follow dir xs with
      | .directory p => d.follow p ys
      | .link at' target rest => .link at' target (rest ++ ys)
      | .file text => if ys.isEmpty then .file text else .nowhere
      | .nowhere => .nowhere := by
  induction xs generalizing dir with
  | nil => rfl
  | cons x xs ih =>
    rw [List.cons_append, follow, follow]
    split
    · exact ih dir
    · split
      · exact ih dir.dropLast
      · split
        · rfl
        · split
          · exact ih _
          · cases xs with
            | nil => simp
            | cons x xs => simp
          · rfl
          · rfl

theorem exists_arrive_append {links : Nat} {dir : Place} {xs : List String}
    (h : d.arrive links dir xs = .directory p) :
    ∃ left, ∀ ys, d.arrive links dir (xs ++ ys) = d.arrive left p ys := by
  induction links generalizing dir xs with
  | zero =>
    refine ⟨0, fun ys => ?_⟩
    unfold arrive at h ⊢
    rw [follow_append]
    cases hfollow : d.follow dir xs with
    | directory p' =>
      rw [hfollow] at h
      cases h
      rfl
    | _ => simp [hfollow] at h
  | succ links ih =>
    cases hfollow : d.follow dir xs with
    | directory p' =>
      refine ⟨links + 1, fun ys => ?_⟩
      unfold arrive at h ⊢
      rw [hfollow] at h
      cases h
      rw [follow_append, hfollow]
    | link at' target rest =>
      unfold arrive at h
      rw [hfollow] at h
      dsimp only at h
      split at h
      · next hpath =>
        obtain ⟨left, hleft⟩ := ih h
        refine ⟨left, fun ys => ?_⟩
        rw [arrive.eq_def]
        dsimp only
        rw [follow_append, hfollow]
        dsimp only
        rw [if_pos hpath, ← List.append_assoc]
        exact hleft ys
      · contradiction
    | _ => simp [arrive, hfollow] at h

theorem exists_arrive_left {links : Nat} {dir : Place} {xs ys : List String}
    (h : d.arrive links dir (xs ++ ys) = .directory p) :
    ∃ q, d.arrive links dir xs = .directory q := by
  induction links generalizing dir xs with
  | zero =>
    unfold arrive at h ⊢
    rw [follow_append] at h
    cases hfollow : d.follow dir xs with
    | directory q => exact ⟨q, rfl⟩
    | file text => cases ys <;> simp [hfollow] at h
    | _ => simp [hfollow] at h
  | succ links ih =>
    unfold arrive at h ⊢
    rw [follow_append] at h
    cases hfollow : d.follow dir xs with
    | directory q => exact ⟨q, rfl⟩
    | file text => cases ys <;> simp [hfollow] at h
    | link at' target rest =>
      rw [hfollow] at h
      dsimp only at h ⊢
      split at h
      · next hpath =>
        rw [if_pos hpath]
        rw [← List.append_assoc] at h
        exact ih h
      · contradiction
    | nowhere => simp [hfollow] at h

/-! Path texts. -/

theorem isPath_of_append {path text : String} (hpath : path ≠ "")
    (h : isPath (path ++ text) = true) : isPath path = true := by
  have hlength : (utf8Bytes path).length ≤ (utf8Bytes (path ++ text)).length := by
    simp [utf8Bytes]
  simp only [isPath, Bool.and_eq_true, decide_eq_true_eq] at h ⊢
  refine ⟨⟨by simpa using hpath, ?_⟩, by omega⟩
  have hnul := h.1.2
  rw [String.toList_append] at hnul
  simp at hnul ⊢
  exact hnul.1

theorem arrive_congr {links : Nat} {dir : Place} {xs ys : List String}
    (h : d.follow dir xs = d.follow dir ys) : d.arrive links dir xs = d.arrive links dir ys := by
  unfold arrive
  rw [h]

end Disk

structure IsIn (path dir name : String) : Prop where
  isEntryName : IsEntryName name
  isRooted_eq : isRooted path = isRooted dir
  way : ∃ names, components path = names ++ [name] ∧
    ∀ (d : Disk) start, d.follow start names = d.follow start (components dir)

theorem isIn_append {dir name : String} (hdir : dir ≠ "") (hname : IsEntryName name) :
    IsIn (dir ++ "/" ++ name) dir name where
  isEntryName := hname
  isRooted_eq := by rw [String.append_assoc, isRooted_append _ _ hdir]
  way := ⟨components dir, components_append hname.2.2.2, fun _ _ => rfl⟩

theorem isIn_pathText {rooted : Bool} {parts : List String} {name : String}
    (h : IsResolved rooted (parts ++ [name])) (hname : IsEntryName name) :
    IsIn (pathText rooted (parts ++ [name])) (pathText rooted parts) name where
  isEntryName := hname
  isRooted_eq := by rw [isRooted_pathText h, isRooted_pathText h.left]
  way := by
    refine ⟨_, components_pathText h, fun d start => ?_⟩
    by_cases hnil : parts = []
    · subst hnil
      rw [components_pathText_nil]
      cases rooted <;> rfl
    · rw [components_pathText_of_ne_nil h.left hnil]

namespace IsIn

variable {d : Disk} {path dir name : String} {p : Place}

theorem endsWithSlash (h : IsIn path dir name) : Disk.endsWithSlash path = false := by
  obtain ⟨names, hnames, -⟩ := h.way
  rw [Disk.endsWithSlash, hnames, List.getLast?_concat]
  simpa using h.isEntryName.1

theorem entry?_eq (h : IsIn path dir name) (d : Disk) :
    d.entry? path = (d.place? path).bind d.get? := by
  obtain ⟨names, hnames, -⟩ := h.way
  obtain ⟨h₁, h₂, h₃, -⟩ := h.isEntryName
  unfold Disk.entry?
  rw [hnames, List.getLast?_concat]
  split
  · next heq => exact absurd (Option.some.inj heq) h₁
  · next heq => exact absurd (Option.some.inj heq) h₂
  · next heq => exact absurd (Option.some.inj heq) h₃
  · rfl

theorem place? (h : IsIn path dir name) (hdir : d.directory? dir = some p) : d.place? path =
    if Disk.isPath path && Disk.isName name then some (p ++ [name]) else none := by
  obtain ⟨names, hnames, hway⟩ := h.way
  obtain ⟨h₁, h₂, h₃, -⟩ := h.isEntryName
  have harrive := (Disk.directory?_eq_some_iff.1 hdir).2
  rw [← h.isRooted_eq, ← Disk.arrive_congr (hway d _)] at harrive
  have hcomponents :
      ((components path).reverse.dropWhile (· == "")).reverse = names ++ [name] := by
    rw [hnames, List.reverse_append, List.reverse_singleton, List.singleton_append,
      List.dropWhile_cons_of_neg (by simpa using h₁), List.reverse_cons, List.reverse_reverse]
  simp only [Disk.place?, hcomponents, List.getLast?_concat, List.dropLast_concat, harrive]
  cases Disk.isPath path <;> cases Disk.isName name <;> simp [h₂, h₃]

theorem exists_status (h : IsIn path dir name) (hdir : d.directory? dir = some p) :
    ∃ left, d.status path = if Disk.isPath path then d.arrive left p [name] else .nowhere := by
  obtain ⟨names, hnames, hway⟩ := h.way
  have harrive := (Disk.directory?_eq_some_iff.1 hdir).2
  rw [← h.isRooted_eq, ← Disk.arrive_congr (hway d _)] at harrive
  obtain ⟨left, hleft⟩ := Disk.exists_arrive_append harrive
  exact ⟨left, by rw [Disk.status, hnames, hleft]⟩

theorem follow (h : IsIn path dir name) (d : Disk) (p : Place) : d.follow p [name] =
    if Disk.isName name then
      match d.get? (p ++ [name]) with
      | some .directory => .directory (p ++ [name])
      | some (.file text) => .file text
      | some (.link target) => .link p target []
      | none => .nowhere
    else .nowhere := by
  obtain ⟨h₁, h₂, h₃, -⟩ := h.isEntryName
  cases hname : Disk.isName name with
  | false => simp [Disk.follow, h₁, h₂, h₃, hname]
  | true =>
    cases hget : d.get? (p ++ [name]) with
    | none => simp [Disk.follow, h₁, h₂, h₃, hname, hget]
    | some e => cases e <;> simp [Disk.follow, h₁, h₂, h₃, hname, hget]

theorem status_of_free (h : IsIn path dir name) (hdir : d.directory? dir = some p)
    (hfree : d.get? (p ++ [name]) = none) : d.status path = .nowhere := by
  obtain ⟨left, hstatus⟩ := h.exists_status hdir
  rw [hstatus]
  unfold Disk.arrive
  rw [h.follow, hfree]
  cases Disk.isName name <;> simp

theorem read? (h : IsIn path dir name) (hdir : d.directory? dir = some p) {q : Place}
    {text : String} (hplace : d.place? path = some q) (hfile : d.get? q = some (.file text)) :
    d.read? path = some text := by
  obtain ⟨left, hstatus⟩ := h.exists_status hdir
  rw [h.place? hdir] at hplace
  split at hplace
  · next hok =>
    cases hplace
    rw [Bool.and_eq_true] at hok
    rw [Disk.read?, hstatus, if_pos hok.1]
    unfold Disk.arrive
    rw [h.follow, hfile, if_pos hok.2]
  · contradiction

theorem directory? (h : IsIn path dir name) (hdir : d.directory? dir = some p) {q : Place}
    (hplace : d.place? path = some q) (hq : d.get? q = some .directory) :
    d.directory? path = some q := by
  obtain ⟨left, hstatus⟩ := h.exists_status hdir
  rw [h.place? hdir] at hplace
  split at hplace
  · next hok =>
    cases hplace
    rw [Bool.and_eq_true] at hok
    rw [Disk.directory?, hstatus, if_pos hok.1]
    unfold Disk.arrive
    rw [h.follow, hq, if_pos hok.2]
  · contradiction

end IsIn

namespace Disk

variable {d d' : Disk} {p : Place} {rooted : Bool} {parts : List String}

/-! Directories that are made. -/

structure AddsDirectories (d d' : Disk) : Prop where
  home : d'.home = d.home
  entries : ∀ p, d'.get? p = d.get? p ∨ d.get? p = none ∧ d'.get? p = some .directory

namespace AddsDirectories

theorem refl (d : Disk) : d.AddsDirectories d :=
  ⟨rfl, fun _ => .inl rfl⟩

theorem trans {d'' : Disk} (h : d.AddsDirectories d') (h' : d'.AddsDirectories d'') :
    d.AddsDirectories d'' := by
  refine ⟨h'.home.trans h.home, fun p => ?_⟩
  rcases h.entries p with heq | ⟨hnone, hdir⟩
  · rw [← heq]
    exact h'.entries p
  · rcases h'.entries p with heq' | ⟨hnone', -⟩
    · exact .inr ⟨hnone, heq'.trans hdir⟩
    · rw [hdir] at hnone'
      contradiction

theorem put (hp : p ≠ []) (hfree : d.get? p = none) : d.AddsDirectories (d.put p .directory) := by
  refine ⟨rfl, fun q => ?_⟩
  rw [get?_put hp]
  split
  · next hq => exact .inr ⟨hq ▸ hfree, rfl⟩
  · exact .inl rfl

end AddsDirectories

theorem directory?_pathText_nil (rooted : Bool) (h : d.IsTree) :
    ∃ p, d.directory? (pathText rooted []) = some p ∧ d.get? p = some .directory := by
  cases rooted with
  | false => exact ⟨d.home, rfl, h.home⟩
  | true => exact ⟨[], rfl, rfl⟩

theorem isResolved_ups (ups : Nat) : IsResolved false (List.replicate ups ".." ++ [".."]) := by
  rw [← List.replicate_succ']
  exact .replicate_ups _

theorem place?_pathText_ups (d : Disk) (ups : Nat) :
    d.place? (pathText false (List.replicate ups ".." ++ [".."])) = none := by
  simp [place?, components_pathText (isResolved_ups ups)]

theorem exists_follow_ups (d : Disk) (ups : Nat) (dir : Place) :
    ∃ p, d.follow dir (List.replicate ups "..") = .directory p := by
  induction ups generalizing dir with
  | zero => exact ⟨dir, rfl⟩
  | succ ups ih =>
    obtain ⟨p, hp⟩ := ih dir.dropLast
    exact ⟨p, by simp [List.replicate_succ, follow, hp]⟩

theorem entry?_pathText_ups (d : Disk) {ups : Nat}
    (hpath : isPath (pathText false (List.replicate ups ".." ++ [".."])) = true) :
    d.entry? (pathText false (List.replicate ups ".." ++ [".."])) = some .directory := by
  have hcomponents := components_pathText (isResolved_ups ups)
  obtain ⟨p, hp⟩ := d.exists_follow_ups (ups + 1) d.home
  have hdir : d.directory? (pathText false (List.replicate ups ".." ++ [".."])) = some p := by
    rw [directory?_eq_some_iff, isRooted_pathText (isResolved_ups ups), hcomponents]
    refine ⟨hpath, ?_⟩
    unfold arrive
    rw [List.replicate_succ'] at hp
    simp [hp]
  unfold entry?
  rw [hcomponents, List.getLast?_concat, hdir]
  rfl

theorem entry?_pathText_nil (h : d.IsTree) : d.entry? (pathText rooted []) = some .directory := by
  obtain ⟨p, hp, -⟩ := directory?_pathText_nil rooted h
  unfold entry?
  rw [components_pathText_nil, hp]
  cases rooted <;> rfl

def heads (rooted : Bool) (done : List String) : List String → List String
  | [] => []
  | name :: rest => pathText rooted (done ++ [name]) :: heads rooted (done ++ [name]) rest

theorem heads_eq_map (done rest : List String) : heads rooted done rest =
    (List.range rest.length).map fun i => pathText rooted (done ++ rest.take (i + 1)) := by
  induction rest generalizing done with
  | nil => rfl
  | cons name rest ih =>
    rw [heads, ih, List.length_cons, List.range_succ_eq_map, List.map_cons, List.map_map]
    simp [Function.comp_def]

theorem makeDirectories_pathText (d : Disk) (h : IsResolved rooted parts) (hparts : parts ≠ []) :
    d.makeDirectories (pathText rooted parts) = d.makeEach (heads rooted [] parts) := by
  have htake : ∀ i, parts.take (i + 1) ≠ [] := by simp [hparts]
  have hne : ∀ i, "/".intercalate (parts.take (i + 1)) ≠ "" := by
    intro i
    apply intercalate_ne_empty (htake i)
    intro part hpart
    exact (h.of_mem (List.mem_of_mem_take hpart)).1
  unfold makeDirectories
  rw [components_pathText_of_ne_nil h hparts, heads_eq_map]
  dsimp only
  apply congrArg
  cases rooted with
  | false =>
    rw [if_neg (by decide), List.nil_append, List.filter_eq_self.2]
    · simp [pathText, hparts]
    · intro path hpath
      obtain ⟨i, -, rfl⟩ := List.mem_map.1 hpath
      simpa using hne i
  | true =>
    have hcons := fun i => intercalate_empty_cons (htake i)
    rw [if_pos rfl, List.singleton_append, List.length_cons, List.range_succ_eq_map,
      List.map_cons, List.filter_cons_of_neg (by simp), List.filter_eq_self.2]
    · simp [pathText, hcons, Function.comp_def]
    · intro path hpath
      obtain ⟨i, hi, rfl⟩ := List.mem_map.1 hpath
      obtain ⟨i, -, rfl⟩ := List.mem_map.1 hi
      simp [hcons]

theorem makeDirectories_pathText_nil (h : d.IsTree) :
    d.makeDirectories (pathText rooted []) = (d, true) := by
  obtain ⟨p, hp, -⟩ := directory?_pathText_nil rooted h
  have hstarts : d.makeDirectories (pathText rooted []) = d.makeEach [pathText rooted []] := by
    unfold makeDirectories
    rw [components_pathText_nil]
    cases rooted <;> rfl
  rw [hstarts, makeEach, directory?_eq_some.1 hp, makeEach]

theorem AddsDirectories.keepsWays (h : d.AddsDirectories d') : d.KeepsWays d' := by
  refine ⟨h.home, fun p e hp _ => ?_⟩
  rcases h.entries p with heq | ⟨hnone, -⟩
  · rw [heq, hp]
  · rw [hnone] at hp
    contradiction

theorem makeEach_cons_cases {name : String} (paths : List String)
    (h : IsResolved rooted (parts ++ [name]))
    (hdir : d.directory? (pathText rooted parts) = some p) :
    (∃ q, d.directory? (pathText rooted (parts ++ [name])) = some q ∧
      d.makeEach (pathText rooted (parts ++ [name]) :: paths) = d.makeEach paths) ∨
    (IsEntryName name ∧ d.get? (p ++ [name]) = none ∧
      d.place? (pathText rooted (parts ++ [name])) = some (p ++ [name]) ∧
      d.makeEach (pathText rooted (parts ++ [name]) :: paths) =
        (d.put (p ++ [name]) .directory).makeEach paths) ∨
    d.makeEach (pathText rooted (parts ++ [name]) :: paths) = (d, false) := by
  rw [makeEach]
  cases hstatus : d.status (pathText rooted (parts ++ [name])) with
  | directory q => exact .inl ⟨q, directory?_eq_some.2 hstatus, rfl⟩
  | nowhere =>
    dsimp only
    rcases h.last.2 with hname | ⟨rfl, rfl, ups, rfl⟩
    · have hplace := (isIn_pathText h hname).place? hdir
      split at hplace
      · cases hget : d.get? (p ++ [name]) with
        | none =>
          refine .inr (.inl ⟨hname, rfl, hplace, ?_⟩)
          simp [makeDirectory?, hplace, hget]
        | some e => simp [makeDirectory?, hplace, hget]
      · simp [makeDirectory?, hplace]
    · simp [makeDirectory?, place?_pathText_ups]
  | _ => simp

/--
The disk on the way to a directory: nothing has been made yet, or the last directory that was made
is empty and names are left.
-/
def MakesFrom (d c : Disk) (p : Place) (rest : List String) : Prop :=
  c = d ∨ (∀ below, below ≠ [] → c.get? (p ++ below) = none) ∧ ∀ name ∈ rest, IsEntryName name

theorem makeEach_heads {c c' : Disk} {done rest : List String} {isThere : Bool}
    (heq : c.makeEach (heads rooted done rest) = (c', isThere))
    (hparts : IsResolved rooted (done ++ rest)) (htree : c.IsTree)
    (hdir : c.directory? (pathText rooted done) = some p) (hmakes : d.MakesFrom c p rest) :
    c'.IsTree ∧ c.AddsDirectories c' ∧ (isThere = true →
      ∃ q, c'.directory? (pathText rooted (done ++ rest)) = some q ∧ d.MakesFrom c' q []) := by
  induction rest generalizing c done p with
  | nil =>
    cases heq
    rw [List.append_nil]
    refine ⟨htree, .refl _, fun _ => ⟨p, hdir, ?_⟩⟩
    exact hmakes
  | cons name rest ih =>
    have happend : done ++ name :: rest = done ++ [name] ++ rest := by simp
    rw [happend] at hparts ⊢
    rcases makeEach_cons_cases (heads rooted (done ++ [name]) rest) hparts.left hdir with
      ⟨q, hq, hstep⟩ | ⟨hname, hfree, hplace, hstep⟩ | hstep
    · rw [heads, hstep] at heq
      refine ih heq hparts htree hq ?_
      rcases hmakes with hsame | ⟨hempty, hnames⟩
      · exact .inl hsame
      · -- nothing is below the directory that was made last, so the next one is not there
        have hname := hnames name (List.mem_cons_self ..)
        have hnowhere := (isIn_pathText hparts.left hname).status_of_free hdir
          (hempty [name] (by simp))
        rw [directory?_eq_some, hnowhere] at hq
        contradiction
    · rw [heads, hstep] at heq
      have hadds := AddsDirectories.put (p := p ++ [name]) (by simp) hfree
      have htree' := htree.put (htree.directory? hdir) hfree .directory
      have hget : (c.put (p ++ [name]) .directory).get? (p ++ [name]) = some .directory := by
        rw [get?_put (by simp), if_pos rfl]
      have hin := isIn_pathText hparts.left hname
      have hdir' := hadds.keepsWays.directory? hdir
      have hplace' := hin.place? hdir'
      rw [← hin.place? hdir, hplace] at hplace'
      have hempty : ∀ below, below ≠ [] →
          (c.put (p ++ [name]) .directory).get? (p ++ [name] ++ below) = none := by
        intro below hbelow
        rw [get?_put (by simp), if_neg (by simpa using hbelow)]
        apply htree.leaf _ below hbelow
        simp [hfree]
      obtain ⟨htree'', hadds', hthere⟩ := ih heq hparts htree' (hin.directory? hdir' hplace' hget)
        (.inr ⟨hempty, hparts.after hname⟩)
      exact ⟨htree'', hadds.trans hadds', hthere⟩
    · rw [heads, hstep] at heq
      cases heq
      exact ⟨htree, .refl _, nofun⟩

theorem makeDirectories_cases {isThere : Bool} (htree : d.IsTree) (hparts : IsResolved rooted parts)
    (heq : d.makeDirectories (pathText rooted parts) = (d', isThere)) :
    d'.IsTree ∧ d.AddsDirectories d' ∧ (isThere = true →
      ∃ p, d'.directory? (pathText rooted parts) = some p ∧ d.MakesFrom d' p []) := by
  obtain ⟨p, hp, -⟩ := directory?_pathText_nil rooted htree
  by_cases hnil : parts = []
  · subst hnil
    rw [makeDirectories_pathText_nil htree] at heq
    cases heq
    exact ⟨htree, .refl _, fun _ => ⟨p, hp, .inl rfl⟩⟩
  · rw [makeDirectories_pathText d hparts hnil] at heq
    have hall := makeEach_heads heq (by rwa [List.nil_append]) htree hp (.inl rfl)
    rwa [List.nil_append] at hall

theorem exists_directory?_left {others : List String} (hparts : IsResolved rooted (parts ++ others))
    (htree : d.IsTree) (hdir : d.directory? (pathText rooted (parts ++ others)) = some p) :
    ∃ q, d.directory? (pathText rooted parts) = some q := by
  induction others using List.reverseRecOn generalizing p with
  | nil =>
    rw [List.append_nil] at hdir
    exact ⟨p, hdir⟩
  | append_singleton others last ih =>
    rw [← List.append_assoc] at hparts hdir
    by_cases hnil : parts ++ others = []
    · rw [(List.append_eq_nil_iff.1 hnil).1]
      obtain ⟨q, hq, -⟩ := directory?_pathText_nil rooted htree
      exact ⟨q, hq⟩
    · obtain ⟨hpath, harrive⟩ := directory?_eq_some_iff.1 hdir
      rw [isRooted_pathText hparts, components_pathText hparts] at harrive
      obtain ⟨q, hq⟩ := exists_arrive_left harrive
      refine ih hparts.left (directory?_eq_some_iff.2 ⟨?_, ?_⟩) (p := q)
      · rw [pathText_append hnil] at hpath
        exact isPath_of_append (pathText_ne_empty hparts.left) hpath
      · rw [isRooted_pathText hparts.left, components_pathText_of_ne_nil hparts.left hnil, hq]

theorem makeEach_heads_of_directory {done rest : List String}
    (hparts : IsResolved rooted (done ++ rest)) (htree : d.IsTree)
    (hdir : d.directory? (pathText rooted (done ++ rest)) = some p) :
    d.makeEach (heads rooted done rest) = (d, true) := by
  induction rest generalizing done with
  | nil => rfl
  | cons name rest ih =>
    have happend : done ++ name :: rest = done ++ [name] ++ rest := by simp
    rw [happend] at hparts hdir
    obtain ⟨q, hq⟩ := exists_directory?_left hparts htree hdir
    rw [heads, makeEach, directory?_eq_some.1 hq]
    exact ih hparts hdir

theorem makeDirectories_of_directory (htree : d.IsTree) (hparts : IsResolved rooted parts)
    (hdir : d.directory? (pathText rooted parts) = some p) :
    d.makeDirectories (pathText rooted parts) = (d, true) := by
  by_cases hnil : parts = []
  · subst hnil
    exact makeDirectories_pathText_nil htree
  · rw [makeDirectories_pathText d hparts hnil]
    exact makeEach_heads_of_directory hparts htree hdir

end Disk

end RecordCodec.Files
