import Mathlib.Data.List.Basic
import Mathlib.Tactic

/-!
# File trees

A directory with its files and subdirectories, the calls that read and change it, and a scan that lists the files
of a directory and of all its subdirectories. What a call does is said of the contents of the files: a finite map
from paths to contents, where the path of a directory has none.
-/

namespace Rtvbp.Lib

/-- A file or a directory. -/
inductive Node (ν β : Type*) where
  | file (content : β)
  | dir (entries : List (ν × Node ν β))

/-- Why a call fails. -/
inductive Failure where
  | notFound
  | notADirectory
  | isADirectory
  | alreadyExists

namespace FileTree

variable {ν β : Type*} [DecidableEq ν]

/-- The content of the file at a path. -/
def read : List (ν × Node ν β) → List ν → Except Failure β
  | _, [] => .error .isADirectory
  | es, name :: rest =>
    match es.lookup name with
    | none => .error .notFound
    | some (.file content) => if rest = [] then .ok content else .error .notADirectory
    | some (.dir sub) => read sub rest

/-- An entry is replaced where it stands, or added. -/
def put (name : ν) (node : Node ν β) : List (ν × Node ν β) → List (ν × Node ν β)
  | [] => [(name, node)]
  | (n, x) :: es => if n = name then (n, node) :: es else (n, x) :: put name node es

/-- An entry is taken away. -/
def erase (name : ν) (es : List (ν × Node ν β)) : List (ν × Node ν β) := es.filter fun e => e.1 ≠ name

/-- The file at a path is changed, made or taken away; its directory must be there. -/
def alter (change : Option β → Except Failure (Option β)) :
    List (ν × Node ν β) → List ν → Except Failure (List (ν × Node ν β))
  | _, [] => .error .isADirectory
  | es, [name] =>
    match es.lookup name with
    | some (.dir _) => .error .isADirectory
    | some (.file content) => (change (some content)).map fun
      | some content => put name (.file content) es
      | none => erase name es
    | none => (change none).map fun
      | some content => put name (.file content) es
      | none => erase name es
  | es, name :: next :: rest =>
    match es.lookup name with
    | none => .error .notFound
    | some (.file _) => .error .notADirectory
    | some (.dir sub) => (alter change sub (next :: rest)).map fun sub => put name (.dir sub) es

/-- The file is written, and made if it is not there. -/
def write (content : β) : List (ν × Node ν β) → List ν → Except Failure (List (ν × Node ν β)) :=
  alter fun _ => .ok (some content)

/-- The file is removed. -/
def remove : List (ν × Node ν β) → List ν → Except Failure (List (ν × Node ν β)) :=
  alter fun
    | none => .error .notFound
    | some _ => .ok none

/-- The directory is made, with those that it is in. -/
def makeDirs : List (ν × Node ν β) → List ν → Except Failure (List (ν × Node ν β))
  | es, [] => .ok es
  | es, name :: rest =>
    match es.lookup name with
    | none => (makeDirs [] rest).map fun sub => put name (.dir sub) es
    | some (.file _) => .error (if rest = [] then .alreadyExists else .notADirectory)
    | some (.dir sub) => (makeDirs sub rest).map fun sub => put name (.dir sub) es

mutual

/-- The files at a path and below that are wanted. -/
def scanNode (wanted : List ν → Bool) (path : List ν) : Node ν β → List (List ν)
  | .file _ => if wanted path then [path] else []
  | .dir es => scan wanted path es

/-- The files of a directory and of its subdirectories that are wanted. -/
def scan (wanted : List ν → Bool) (path : List ν) : List (ν × Node ν β) → List (List ν)
  | [] => []
  | (name, node) :: es => scanNode wanted (path ++ [name]) node ++ scan wanted path es

end

mutual

/-- The names of a directory, and of all below it, are distinct. -/
def DistinctNode : Node ν β → Prop
  | .file _ => True
  | .dir es => Distinct es

def Distinct : List (ν × Node ν β) → Prop
  | [] => True
  | (name, node) :: es => name ∉ es.map Prod.fst ∧ DistinctNode node ∧ Distinct es

end

/-! ## Contents -/

/-- The content of the file at a path, if there is one. -/
def content (es : List (ν × Node ν β)) (path : List ν) : Option β := (read es path).toOption

/-- The content of the file at a path below a node. -/
def contentNode (node : Node ν β) (path : List ν) : Option β :=
  match node with
  | .file content => if path = [] then some content else none
  | .dir es => content es path

variable {es es' : List (ν × Node ν β)} {name : ν} {node : Node ν β} {path : List ν}

@[simp] theorem content_nil_path : content es [] = none := rfl

theorem content_cons_path : content es (name :: path) = (es.lookup name).bind fun node => contentNode node path := by
  unfold content
  rw [read]
  cases es.lookup name with
  | none => rfl
  | some node =>
    cases node with
    | file c =>
      show Except.toOption (if path = [] then .ok c else .error Failure.notADirectory) = if path = [] then some c else none
      split_ifs <;> rfl
    | dir sub => rfl

theorem lookup_cons_ite (n : ν) (x : Node ν β) (other : ν) :
    ((n, x) :: es).lookup other = if other = n then some x else es.lookup other := by
  rw [List.lookup_cons]
  by_cases h : other = n
  · rw [if_pos h, beq_iff_eq.mpr h]
  · rw [if_neg h, beq_eq_false_iff_ne.mpr h]

theorem lookup_put (other : ν) : (put name node es).lookup other = if other = name then some node else es.lookup other := by
  induction es with
  | nil => exact lookup_cons_ite name node other
  | cons e es ih =>
    obtain ⟨n, x⟩ := e
    unfold put
    by_cases hn : n = name
    · subst hn
      rw [if_pos rfl, lookup_cons_ite, lookup_cons_ite]
      split_ifs <;> rfl
    · rw [if_neg hn, lookup_cons_ite, lookup_cons_ite, ih]
      by_cases h : other = n
      · subst h
        rw [if_pos rfl, if_neg hn, if_pos rfl]
      · rw [if_neg h, if_neg h]

theorem lookup_erase (other : ν) : (erase name es).lookup other = if other = name then none else es.lookup other := by
  induction es with
  | nil => simp [erase]
  | cons e es ih =>
    obtain ⟨n, x⟩ := e
    unfold erase at ih ⊢
    by_cases hn : n = name
    · subst hn
      rw [List.filter_cons_of_neg (by simp), ih, lookup_cons_ite]
      split_ifs <;> rfl
    · rw [List.filter_cons_of_pos (by simpa using hn), lookup_cons_ite, lookup_cons_ite, ih]
      by_cases h : other = n
      · subst h
        rw [if_pos rfl, if_neg hn, if_pos rfl]
      · rw [if_neg h, if_neg h]

/-- An entry that is put where it stands changes nothing. -/
theorem put_of_lookup (h : es.lookup name = some node) : put name node es = es := by
  induction es with
  | nil => cases h
  | cons e es ih =>
    obtain ⟨n, x⟩ := e
    rw [lookup_cons_ite] at h
    unfold put
    by_cases hn : n = name
    · subst hn
      rw [if_pos rfl] at h ⊢
      rw [Option.some.inj h]
    · rw [if_neg (Ne.symm hn)] at h
      rw [if_neg hn, ih h]

theorem content_put (n : ν) (rest : List ν) :
    content (put name node es) (n :: rest) = if n = name then contentNode node rest else content es (n :: rest) := by
  rw [content_cons_path, content_cons_path, lookup_put]
  split_ifs <;> rfl

theorem content_erase (n : ν) (rest : List ν) :
    content (erase name es) (n :: rest) = if n = name then none else content es (n :: rest) := by
  rw [content_cons_path, content_cons_path, lookup_erase]
  split_ifs <;> rfl

/-! ## What the calls do -/

/-- The entries of a directory after a file of its own is changed. -/
def place (name : ν) (es : List (ν × Node ν β)) : Option β → List (ν × Node ν β)
  | some content => put name (.file content) es
  | none => erase name es

theorem content_place (c : Option β) (q : List ν) (hfile : ∀ sub, es.lookup name ≠ some (.dir sub)) :
    content (place name es c) q = if q = [name] then c else content es q := by
  -- below a name that is no directory there is nothing
  have hbelow : ∀ n rest, content es (name :: n :: rest) = none := by
    intro n rest
    rw [content_cons_path]
    cases hlookup : es.lookup name with
    | none => rfl
    | some node =>
      cases node with
      | file old => rfl
      | dir sub => exact absurd hlookup (hfile sub)
  have hplace : ∀ n rest, n ≠ name → content (place name es c) (n :: rest) = content es (n :: rest) := by
    intro n rest hn
    cases c with
    | none => rw [place, content_erase, if_neg hn]
    | some b => rw [place, content_put, if_neg hn]
  cases q with
  | nil => rfl
  | cons n rest =>
    by_cases hn : n = name
    · subst hn
      cases rest with
      | nil =>
        rw [if_pos rfl]
        cases c with
        | none => rw [place, content_erase, if_pos rfl]
        | some b =>
          rw [place, content_put, if_pos rfl]
          rfl
      | cons next rest =>
        rw [if_neg (by simp), hbelow]
        cases c with
        | none => rw [place, content_erase, if_pos rfl]
        | some b =>
          rw [place, content_put, if_pos rfl]
          rfl
    · rw [if_neg fun heq => hn (List.cons.inj heq).1, hplace n rest hn]

/-- What a call that changes a file needs, and what it leaves. -/
theorem alter_singleton {change : Option β → Except Failure (Option β)} (h : alter change es [name] = .ok es') :
    (∀ sub, es.lookup name ≠ some (.dir sub)) ∧
      ∃ c, change (content es [name]) = .ok c ∧ es' = place name es c := by
  rw [content_cons_path]
  unfold alter at h
  cases hlookup : es.lookup name with
  | none =>
    rw [hlookup] at h
    dsimp only at h
    refine ⟨fun sub heq => (by cases heq), ?_⟩
    show ∃ c, change none = .ok c ∧ es' = place name es c
    cases hchange : change none with
    | error e =>
      rw [hchange] at h
      cases h
    | ok c =>
      rw [hchange] at h
      refine ⟨c, rfl, ?_⟩
      rw [← Except.ok.inj h]
      cases c <;> rfl
  | some node =>
    rw [hlookup] at h
    cases node with
    | dir sub => cases h
    | file old =>
      dsimp only at h
      refine ⟨fun sub heq => (by cases heq), ?_⟩
      show ∃ c, change (some old) = .ok c ∧ es' = place name es c
      cases hchange : change (some old) with
      | error e =>
        rw [hchange] at h
        cases h
      | ok c =>
        rw [hchange] at h
        refine ⟨c, rfl, ?_⟩
        rw [← Except.ok.inj h]
        cases c <;> rfl

theorem alter_cons {change : Option β → Except Failure (Option β)} {next : ν} {rest : List ν}
    (h : alter change es (name :: next :: rest) = .ok es') :
    ∃ sub sub', es.lookup name = some (.dir sub) ∧ alter change sub (next :: rest) = .ok sub' ∧
      es' = put name (.dir sub') es := by
  unfold alter at h
  cases hlookup : es.lookup name with
  | none =>
    rw [hlookup] at h
    cases h
  | some node =>
    rw [hlookup] at h
    cases node with
    | file old => cases h
    | dir sub =>
      dsimp only at h
      cases hsub : alter change sub (next :: rest) with
      | error e =>
        rw [hsub] at h
        cases h
      | ok sub' =>
        rw [hsub] at h
        exact ⟨sub, sub', rfl, hsub, (Except.ok.inj h).symm⟩

/-- A call that changes a file changes its content, and no other. -/
theorem content_alter {change : Option β → Except Failure (Option β)} (h : alter change es path = .ok es') :
    ∃ c, change (content es path) = .ok c ∧ ∀ q, content es' q = if q = path then c else content es q := by
  induction path generalizing es es' with
  | nil => cases h
  | cons name rest ih =>
    cases rest with
    | nil =>
      obtain ⟨hfile, c, hchange, rfl⟩ := alter_singleton h
      exact ⟨c, hchange, fun q => content_place c q hfile⟩
    | cons next rest =>
      obtain ⟨sub, sub', hlookup, hsub, rfl⟩ := alter_cons h
      obtain ⟨c, hchange, hcontent⟩ := ih hsub
      have hinside : ∀ q, content es (name :: q) = content sub q := by
        intro q
        rw [content_cons_path, hlookup]
        rfl
      refine ⟨c, by rw [hinside]; exact hchange, fun q => ?_⟩
      cases q with
      | nil => rfl
      | cons n q =>
        rw [content_put]
        by_cases hn : n = name
        · subst hn
          rw [if_pos rfl, hinside]
          show content sub' q = _
          rw [hcontent q]
          by_cases hq : q = next :: rest
          · rw [if_pos hq, if_pos (congrArg _ hq)]
          · rw [if_neg hq, if_neg fun heq => hq (List.cons.inj heq).2]
        · rw [if_neg hn, if_neg fun heq => hn (List.cons.inj heq).1]

/-- A directory on the way is there, or it is made. -/
theorem makeDirs_cons {rest : List ν} (h : makeDirs es (name :: rest) = .ok es') :
    ∃ sub sub', (es.lookup name = none ∧ sub = [] ∨ es.lookup name = some (.dir sub)) ∧
      makeDirs sub rest = .ok sub' ∧ es' = put name (.dir sub') es := by
  have hmap : ∀ sub : List (ν × Node ν β), (makeDirs sub rest).map (fun sub => put name (.dir sub) es) = .ok es' →
      ∃ sub', makeDirs sub rest = .ok sub' ∧ es' = put name (.dir sub') es := by
    intro sub hsub
    cases hmade : makeDirs sub rest with
    | error e =>
      rw [hmade] at hsub
      cases hsub
    | ok sub' =>
      rw [hmade] at hsub
      exact ⟨sub', rfl, (Except.ok.inj hsub).symm⟩
  unfold makeDirs at h
  cases hlookup : es.lookup name with
  | none =>
    rw [hlookup] at h
    obtain ⟨sub', hmade, rfl⟩ := hmap [] h
    exact ⟨[], sub', .inl ⟨rfl, rfl⟩, hmade, rfl⟩
  | some node =>
    rw [hlookup] at h
    cases node with
    | file old => cases h
    | dir sub =>
      obtain ⟨sub', hmade, rfl⟩ := hmap sub h
      exact ⟨sub, sub', .inr rfl, hmade, rfl⟩

/-- Directories that are made hold no file, and the others keep theirs. -/
theorem content_makeDirs (h : makeDirs es path = .ok es') (q : List ν) : content es' q = content es q := by
  induction path generalizing es es' q with
  | nil => rw [Except.ok.inj h]
  | cons name rest ih =>
    obtain ⟨sub, sub', hsub, hmade, rfl⟩ := makeDirs_cons h
    have hinside : ∀ q, content es (name :: q) = content sub q := by
      intro q
      rw [content_cons_path]
      rcases hsub with ⟨hnone, rfl⟩ | hsome
      · rw [hnone]
        cases q <;> rfl
      · rw [hsome]
        rfl
    cases q with
    | nil => rfl
    | cons n q =>
      rw [content_put]
      by_cases hn : n = name
      · subst hn
        rw [if_pos rfl, hinside]
        exact ih hmade q
      · rw [if_neg hn]

/-- The directories of a file are there. -/
theorem makeDirs_of_content {name : ν} {b : β} (h : content es (path ++ [name]) = some b) : makeDirs es path = .ok es := by
  induction path generalizing es with
  | nil => rfl
  | cons n path ih =>
    rw [List.cons_append, content_cons_path] at h
    obtain ⟨node, hlookup, hnode⟩ := Option.bind_eq_some_iff.mp h
    unfold makeDirs
    rw [hlookup]
    cases node with
    | file old =>
      have hnil : (path ++ [name]) ≠ [] := by simp
      rw [contentNode, if_neg hnil] at hnode
      cases hnode
    | dir sub =>
      dsimp only
      rw [ih hnode]
      show Except.ok (put n (.dir sub) es) = .ok es
      rw [put_of_lookup hlookup]

/-! ## Distinct names -/

theorem put_names (n : ν) : n ∈ (put name node es).map Prod.fst ↔ n = name ∨ n ∈ es.map Prod.fst := by
  induction es with
  | nil => simp [put]
  | cons e es ih =>
    obtain ⟨m, x⟩ := e
    unfold put
    by_cases hm : m = name
    · subst hm
      simp only [if_true, List.map_cons, List.mem_cons]
      tauto
    · simp only [if_neg hm, List.map_cons, List.mem_cons, ih]
      tauto

theorem Distinct.put (h : Distinct es) (hnode : DistinctNode node) : Distinct (put name node es) := by
  induction es with
  | nil => exact ⟨List.not_mem_nil, hnode, trivial⟩
  | cons e es ih =>
    obtain ⟨m, x⟩ := e
    obtain ⟨hfresh, hx, hes⟩ := h
    unfold FileTree.put
    by_cases hm : m = name
    · rw [if_pos hm]
      exact ⟨hfresh, hnode, hes⟩
    · rw [if_neg hm]
      refine ⟨?_, hx, ih hes⟩
      rw [put_names, not_or]
      exact ⟨hm, hfresh⟩

theorem Distinct.erase (h : Distinct es) : Distinct (erase name es) := by
  induction es with
  | nil => exact h
  | cons e es ih =>
    obtain ⟨m, x⟩ := e
    obtain ⟨hfresh, hx, hes⟩ := h
    unfold FileTree.erase at ih ⊢
    by_cases hm : m = name
    · rw [List.filter_cons_of_neg (by simpa using hm)]
      exact ih hes
    · rw [List.filter_cons_of_pos (by simpa using hm)]
      refine ⟨fun hmem => hfresh ?_, hx, ih hes⟩
      exact (List.filter_sublist.map Prod.fst).subset hmem

theorem Distinct.lookup (h : Distinct es) (hlookup : es.lookup name = some node) : DistinctNode node := by
  induction es with
  | nil => cases hlookup
  | cons e es ih =>
    obtain ⟨m, x⟩ := e
    obtain ⟨-, hx, hes⟩ := h
    rw [lookup_cons_ite] at hlookup
    by_cases hm : name = m
    · rw [if_pos hm] at hlookup
      rwa [← Option.some.inj hlookup]
    · rw [if_neg hm] at hlookup
      exact ih hes hlookup

theorem Distinct.alter {change : Option β → Except Failure (Option β)} (hes : Distinct es)
    (h : alter change es path = .ok es') : Distinct es' := by
  induction path generalizing es es' with
  | nil => cases h
  | cons name rest ih =>
    cases rest with
    | nil =>
      obtain ⟨-, c, -, rfl⟩ := alter_singleton h
      cases c with
      | none => exact hes.erase
      | some b => exact hes.put trivial
    | cons next rest =>
      obtain ⟨sub, sub', hlookup, hsub, rfl⟩ := alter_cons h
      have hdistinct : Distinct sub := hes.lookup hlookup
      have hdistinct' : DistinctNode (.dir sub') := ih hdistinct hsub
      exact hes.put hdistinct'

theorem Distinct.makeDirs (hes : Distinct es) (h : makeDirs es path = .ok es') : Distinct es' := by
  induction path generalizing es es' with
  | nil =>
    rw [← Except.ok.inj h]
    exact hes
  | cons name rest ih =>
    obtain ⟨sub, sub', hsub, hmade, rfl⟩ := makeDirs_cons h
    have hdistinct : Distinct sub := by
      rcases hsub with ⟨-, rfl⟩ | hsome
      · trivial
      · exact hes.lookup hsome
    have hdistinct' : DistinctNode (.dir sub') := ih hdistinct hmade
    exact hes.put hdistinct'

/-! ## The scan -/

theorem content_cons (n : ν) (x : Node ν β) (m : ν) (rest : List ν) :
    content ((n, x) :: es) (m :: rest) = if m = n then contentNode x rest else content es (m :: rest) := by
  rw [content_cons_path, content_cons_path, lookup_cons_ite]
  split_ifs <;> rfl

theorem mem_names_of_content {m : ν} {rest : List ν} (h : (content es (m :: rest)).isSome) : m ∈ es.map Prod.fst := by
  rw [content_cons_path] at h
  cases hlookup : es.lookup m with
  | none =>
    rw [hlookup] at h
    cases h
  | some node =>
    by_contra hmem
    have hnone : es.lookup m = none := by
      rw [List.lookup_eq_none_iff]
      intro p hp
      rw [bne_iff_ne]
      rintro rfl
      exact hmem (List.mem_map_of_mem hp)
    rw [hlookup] at hnone
    cases hnone

mutual

theorem mem_scanNode {wanted : List ν → Bool} {base q : List ν} :
    ∀ {node : Node ν β}, DistinctNode node →
      (q ∈ scanNode wanted base node ↔ ∃ r, q = base ++ r ∧ (contentNode node r).isSome ∧ wanted q = true)
  | .file b, _ => by
    unfold scanNode contentNode
    constructor
    · intro hmem
      split_ifs at hmem with hwanted
      · obtain rfl := List.mem_singleton.mp hmem
        exact ⟨[], (List.append_nil q).symm, rfl, hwanted⟩
      · cases hmem
    · rintro ⟨r, rfl, hsome, hwanted⟩
      split_ifs at hsome with hr
      · subst hr
        rw [List.append_nil] at hwanted ⊢
        rw [if_pos hwanted]
        exact List.mem_singleton_self base
      · cases hsome
  | .dir es, h => mem_scan h

/-- The scan finds the files that are wanted. -/
theorem mem_scan {wanted : List ν → Bool} {base q : List ν} :
    ∀ {es : List (ν × Node ν β)}, Distinct es →
      (q ∈ scan wanted base es ↔ ∃ r, q = base ++ r ∧ (content es r).isSome ∧ wanted q = true)
  | [], _ => by
    refine iff_of_false List.not_mem_nil ?_
    rintro ⟨r, -, hsome, -⟩
    cases r <;> cases hsome
  | (n, x) :: es, h => by
    obtain ⟨hfresh, hx, hes⟩ := h
    have hnode := @mem_scanNode wanted (base ++ [n]) q x hx
    have hrest := @mem_scan wanted base q es hes
    rw [scan, List.mem_append, hnode, hrest]
    constructor
    · rintro (⟨r, rfl, hsome, hwanted⟩ | ⟨r, rfl, hsome, hwanted⟩)
      · refine ⟨n :: r, List.append_assoc .., ?_, hwanted⟩
        rw [content_cons, if_pos rfl]
        exact hsome
      · cases r with
        | nil => cases hsome
        | cons m r =>
          have hne : m ≠ n := by
            rintro rfl
            exact hfresh (mem_names_of_content hsome)
          refine ⟨m :: r, rfl, ?_, hwanted⟩
          rw [content_cons, if_neg hne]
          exact hsome
    · rintro ⟨r, rfl, hsome, hwanted⟩
      cases r with
      | nil => cases hsome
      | cons m r =>
        rw [content_cons] at hsome
        by_cases hm : m = n
        · subst hm
          rw [if_pos rfl] at hsome
          exact .inl ⟨r, List.append_cons base m r, hsome, hwanted⟩
        · rw [if_neg hm] at hsome
          exact .inr ⟨m :: r, rfl, hsome, hwanted⟩

end

end FileTree

end Rtvbp.Lib
