import Sift.Expr.Text
import Sift.Proofs.Json.Forms

/-!
# Expressions, written and read

`ofText?_toText`: an expression that is written as text is read as the same expression, with the
members of its literals in their order, empty paths, variables and lists within lists. So no two
expressions have one text. Literals with fractions are left out, and so is what nests deeper than
texts may.

Reading works on the form of the text, which reads as what `toJson` gives, if the codec is lawful. A
form that reads as a kind of expression is read as that kind, if its parts are read (`read_value`
and so on); the induction over the expression (`ofSource?_reads`) keeps count of the room that
containers take.
-/

namespace Sift

open Json Source

namespace Expr

/-! ## 1. Literals -/

mutual

/-- The literals of an expression, from left to right. -/
def literals : Expr → List Json
  | .truth _ | .field _ => []
  | .value v => [v]
  | .func _ es | .and es | .or es => literalsOfAll es
  | .not e | .present e | .absent e => e.literals
  | .loop _ _ target body => target.literals ++ body.literals
  | .relation _ lhs rhs | .like lhs rhs => lhs.literals ++ rhs.literals

/-- The literals of several expressions. -/
def literalsOfAll : List Expr → List Json
  | [] => []
  | e :: rest => e.literals ++ literalsOfAll rest

end

theorem allExact_strings : ∀ path : Path, AllExact (path.map Json.string)
  | [] => trivial
  | _ :: path => ⟨trivial, allExact_strings path⟩

theorem exact_tagged {name : String} {v : Json} (h : v.Exact) : (tagged name v).Exact :=
  ⟨List.pairwise_singleton _ _, h, trivial⟩

mutual

/-- **What an expression is written as is exact** if its literals are. -/
theorem exact_toJson : ∀ {e : Expr}, (∀ v ∈ e.literals, v.Exact) → e.toJson.Exact
  | .truth _, _ => trivial
  | .value v, h => exact_tagged (h v (List.mem_singleton.mpr rfl))
  | .field f, _ => exact_tagged
    ⟨(by decide : ["root", "path"].Nodup), trivial, allExact_strings f.path, trivial⟩
  | .func _ _, h => exact_tagged
    ⟨(by decide : ["name", "params"].Nodup), trivial, allExact_toJsons h, trivial⟩
  | .and _, h | .or _, h => exact_tagged (allExact_toJsons h)
  | .not _, h | .present _, h | .absent _, h => exact_tagged (exact_toJson h)
  | .loop _ _ _ _, h =>
    have ⟨htarget, hbody⟩ := List.forall_mem_append.mp h
    exact_tagged ⟨(by decide : ["var", "target", "body"].Nodup), trivial, exact_toJson htarget,
      exact_toJson hbody, trivial⟩
  | .relation _ _ _, h | .like _ _, h =>
    have ⟨hlhs, hrhs⟩ := List.forall_mem_append.mp h
    exact_tagged
      ⟨(by decide : ["lhs", "rhs"].Nodup), exact_toJson hlhs, exact_toJson hrhs, trivial⟩

theorem allExact_toJsons : ∀ {es : List Expr}, (∀ v ∈ literalsOfAll es, v.Exact) →
    AllExact (toJsons es)
  | [], _ => trivial
  | _ :: _, h =>
    have ⟨hfirst, hrest⟩ := List.forall_mem_append.mp h
    ⟨exact_toJson hfirst, allExact_toJsons hrest⟩

end

/-! ## 2. Parts -/

/-- Of members with different names, one has the name of each. -/
theorem filter_name {members : List (String × Source)} (h : (members.map (·.1)).Nodup)
    {m : String × Source} (hm : m ∈ members) : members.filter (·.1 = m.1) = [m] := by
  induction members with
  | nil => cases hm
  | cons other rest ih =>
    obtain ⟨hnot, hrest⟩ := List.nodup_cons.mp h
    have hne {m : String × Source} (hm : m ∈ rest) : other.1 ≠ m.1 := fun he =>
      hnot (List.mem_map.mpr ⟨m, hm, he.symm⟩)
    rcases List.mem_cons.mp hm with rfl | hm
    · rw [List.filter_cons_of_pos (by simp), List.filter_eq_nil_iff.mpr fun m hm => ?_]
      simpa using (hne hm).symm
    · rw [List.filter_cons_of_neg (by simpa using hne hm), ih hrest hm]

section Parts

variable {J : Codec} {form : Source}

theorem string?_reads {s : String} (h : J.Reads form (.string s)) : string? J form = some s := by
  cases form with
  | string body => exact h
  | _ => cases h

theorem var?_reads {v : Variable} (h : J.Reads form (variableJson v)) : var? J form = some v := by
  cases form with
  | number text =>
    have h : J.number? text = some (.natural v) := h
    rw [var?, h]
  | _ => cases h

/-- The names of members are read, and what they are the names of stays as it is. -/
theorem named_of_reads : ∀ {members : List (String × Json)} {forms : List (Bytes × Source)},
    J.ReadsMembers forms members → ∃ named : List (String × Source),
      (forms.mapM fun m => do return (← J.string? m.1, m.2)) = some named ∧
        named.map (·.1) = members.map (·.1) ∧
          List.Forall₂ J.Reads (named.map (·.2)) (members.map (·.2))
  | [], forms, h => by
    cases forms with
    | nil => exact ⟨[], rfl, rfl, .nil⟩
    | cons _ _ => cases h
  | (name, v) :: members, forms, h => by
    cases forms with
    | nil => cases h
    | cons m forms =>
      obtain ⟨hname, hform, hrest⟩ : J.string? m.1 = some name ∧ J.Reads m.2 v ∧
        J.ReadsMembers forms members := h
      obtain ⟨named, hnamed, hnames, hreads⟩ := named_of_reads hrest
      refine ⟨(name, m.2) :: named, ?_, congrArg (name :: ·) hnames, .cons hform hreads⟩
      rw [List.mapM_cons, hname, hnamed]
      rfl

/-- **The parts of what reads as an object** are its members, in order. -/
theorem parts?_reads {members : List (String × Json)} (h : J.Reads form (.object members))
    (hn : (members.map (·.1)).Nodup) : ∃ forms,
      parts? J (members.map (·.1)) form = some (forms.map some) ∧
        List.Forall₂ J.Reads forms (members.map (·.2)) := by
  cases form with
  | object written =>
    obtain ⟨named, hnamed, hnames, hreads⟩ := named_of_reads h
    rw [← hnames] at hn ⊢
    refine ⟨named.map (·.2), Option.bind_eq_some_iff.mpr ⟨named, hnamed, ?_⟩, hreads⟩
    rw [List.map_map]
    exact mapM_map_eq_some fun m hm => by rw [filter_name hn hm]; rfl
  | _ => cases h

theorem allParts?_reads {members : List (String × Json)} (h : J.Reads form (.object members))
    (hn : (members.map (·.1)).Nodup) : ∃ forms,
      allParts? J (members.map (·.1)) form = some forms ∧
        List.Forall₂ J.Reads forms (members.map (·.2)) := by
  obtain ⟨forms, hparts, hreads⟩ := parts?_reads h hn
  refine ⟨forms, ?_, hreads⟩
  rw [allParts?, hparts]
  exact (mapM_map_eq_some (f := some) (g := id) (h := id) fun _ _ => rfl).trans
    (congrArg some (List.map_id forms))

/-- The two parts of an object. -/
theorem two_reads {a b : String} {v w : Json} (hne : a ≠ b)
    (h : J.Reads form (.object [(a, v), (b, w)])) :
    ∃ first second, allParts? J [a, b] form = some [first, second] ∧
      J.Reads first v ∧ J.Reads second w := by
  obtain ⟨forms, hparts, hreads⟩ := allParts?_reads h (by simpa using hne)
  obtain _ | ⟨hfirst, _ | ⟨hsecond, _ | _⟩⟩ := hreads
  exact ⟨_, _, hparts, hfirst, hsecond⟩

theorem names_reads : ∀ {path : Path} {forms : List Source},
    J.ReadsAll forms (path.map Json.string) → forms.mapM (string? J) = some path
  | [], forms, h => by
    cases forms with
    | nil => rfl
    | cons _ _ => cases h
  | name :: path, forms, h => by
    cases forms with
    | nil => cases h
    | cons form forms =>
      obtain ⟨hname, hrest⟩ : J.Reads form (.string name) ∧
        J.ReadsAll forms (path.map Json.string) := h
      rw [List.mapM_cons, string?_reads hname, names_reads hrest]
      rfl

theorem path?_reads {room : Nat} {path : Path}
    (h : J.Reads form (.array (path.map Json.string))) : path? J (room + 1) form = some path := by
  cases form with
  | array forms =>
    rw [path?, if_neg (Nat.succ_ne_zero room)]
    exact names_reads h
  | _ => cases h

theorem field?_reads {room : Nat} {f : Field}
    (h : J.Reads form (.object [("root", variableJson f.root),
      ("path", .array (f.path.map Json.string))])) : field? J (room + 1) form = some f := by
  obtain ⟨forms, hparts, hreads⟩ := parts?_reads h (by decide : ["root", "path"].Nodup)
  obtain _ | ⟨hroot, _ | ⟨hpath, _ | _⟩⟩ := hreads
  rw [List.map_cons, List.map_cons, List.map_nil] at hparts
  rw [field?, hparts]
  simp only [Option.bind_eq_bind, Option.bind_some, List.map_cons, List.map_nil, path?_reads hpath,
    var?_reads hroot]
  rfl

end Parts

/-! ## 3. Room -/

section Room

variable {room : Nat} {v : Json}

theorem room_array {elements : List Json} (h : (Json.array elements).depth ≤ room) :
    ∃ inner, room = inner + 1 ∧ depthOfAll elements ≤ inner := by
  rw [depth] at h
  exact ⟨room - 1, by omega, by omega⟩

theorem room_object {members : List (String × Json)} (h : (Json.object members).depth ≤ room) :
    ∃ inner, room = inner + 1 ∧ depthOfMembers members ≤ inner := by
  rw [depth] at h
  exact ⟨room - 1, by omega, by omega⟩

theorem room_members {name : String} {rest : List (String × Json)}
    (h : depthOfMembers ((name, v) :: rest) ≤ room) :
    v.depth ≤ room ∧ depthOfMembers rest ≤ room := by
  rwa [depthOfMembers, Nat.max_le] at h

theorem room_tagged {name : String} (h : (tagged name v).depth ≤ room) :
    ∃ inner, room = inner + 1 ∧ v.depth ≤ inner := by
  obtain ⟨inner, rfl, hmembers⟩ := room_object h
  exact ⟨inner, rfl, (room_members hmembers).1⟩

end Room

/-! ## 4. Kinds of expressions -/

/-- An object of one member. -/
def kindForm (body : Bytes) (form : Source) : Source := .object [(body, form)]

/-- The kinds that hold one expression. -/
def holders : List (String × (Expr → Expr)) :=
  [("not", .not), ("exists", .present), ("not_exists", .absent)]

/-- The kinds that hold a list of expressions. -/
def connectives : List (String × (List Expr → Expr)) := [("and", .and), ("or", .or)]

section Kinds

-- the equations of the reader are long, so they are made here and not in each proof
attribute [local simp] ofSource?

variable {J : Codec} {room : Nat} {kind : String} {body : Bytes} {form lhs rhs : Source}
  {e l r : Expr} {es : List Expr}

/-- What reads as `tagged` gives it is such an object. -/
theorem exists_kindForm {v : Json} (h : J.Reads form (tagged kind v)) :
    ∃ body inner, form = kindForm body inner ∧ J.string? body = some kind ∧ J.Reads inner v := by
  cases form with
  | object forms => cases forms with
    | nil => cases h
    | cons m rest =>
      obtain ⟨hname, hform, hrest⟩ : J.string? m.1 = some kind ∧ J.Reads m.2 v ∧
        J.ReadsMembers rest [] := h
      cases rest with
      | nil => exact ⟨m.1, m.2, rfl, hname, hform⟩
      | cons _ _ => cases hrest
  | _ => cases h

theorem string?_kindForm : string? J (kindForm body form) = none := rfl

theorem member?_kindForm (hk : J.string? body = some kind) :
    member? J (kindForm body form) = some (kind, form) := by
  show (do return (← J.string? body, form)) = _
  rw [hk]
  rfl

theorem read_value {v : Json} (hk : J.string? body = some "value")
    (h : J.value? room form = some v) :
    ofSource? J (room + 1) (kindForm body form) = some (.value v) := by
  rw [ofSource?, string?_kindForm, member?_kindForm hk]
  dsimp only [Option.bind_eq_bind, Option.bind_some]
  rw [h]
  rfl

theorem read_holder {make : Expr → Expr} (hkind : (kind, make) ∈ holders)
    (hk : J.string? body = some kind) (h : ofSource? J room form = some e) :
    ofSource? J (room + 1) (kindForm body form) = some (make e) := by
  simp only [holders, List.mem_cons, Prod.mk.injEq, List.not_mem_nil, or_false] at hkind
  rw [ofSource?, string?_kindForm, member?_kindForm hk]
  rcases hkind with ⟨rfl, rfl⟩ | ⟨rfl, rfl⟩ | ⟨rfl, rfl⟩
  all_goals
    dsimp only [Option.bind_eq_bind, Option.bind_some]
    rw [h]
    rfl

theorem read_field {f : Field} (hk : J.string? body = some "field")
    (h : field? J room form = some f) :
    ofSource? J (room + 2) (kindForm body form) = some (.field f) := by
  rw [ofSource?, string?_kindForm, member?_kindForm hk]
  dsimp only [Option.bind_eq_bind, Option.bind_some]
  rw [h]
  rfl

theorem read_connective {make : List Expr → Expr} (hkind : (kind, make) ∈ connectives)
    (hk : J.string? body = some kind) {forms : List Source}
    (h : forms.mapM (ofSource? J room) = some es) :
    ofSource? J (room + 2) (kindForm body (.array forms)) = some (make es) := by
  simp only [connectives, List.mem_cons, Prod.mk.injEq, List.not_mem_nil, or_false] at hkind
  rw [ofSource?, string?_kindForm, member?_kindForm hk]
  rcases hkind with ⟨rfl, rfl⟩ | ⟨rfl, rfl⟩
  all_goals
    dsimp only [Option.bind_eq_bind, Option.bind_some, elements?]
    rw [h]
    rfl

theorem read_func {f : Function} {name : Source} {forms : List Source}
    (hk : J.string? body = some "func")
    (hparts : allParts? J ["name", "params"] form = some [name, .array forms])
    (hname : J.Reads name (.string f.name)) (h : forms.mapM (ofSource? J room) = some es) :
    ofSource? J (room + 3) (kindForm body form) = some (.func f es) := by
  have hname : name? J (room + 1) name = some f.name := by
    rw [name?, string?_reads hname]
  rw [ofSource?, string?_kindForm, member?_kindForm hk]
  simp only [Option.bind_eq_bind, Option.bind_some, hparts, hname, Function.ofName?_name, elements?,
    h]
  rfl

theorem read_like (hk : J.string? body = some "like")
    (hparts : allParts? J ["lhs", "rhs"] form = some [lhs, rhs])
    (hl : ofSource? J room lhs = some l) (hr : ofSource? J room rhs = some r) :
    ofSource? J (room + 2) (kindForm body form) = some (.like l r) := by
  rw [ofSource?, string?_kindForm, member?_kindForm hk]
  simp only [Option.bind_eq_bind, Option.bind_some, hparts, hl, hr]
  rfl

theorem read_relation {relation : Relation}
    (hk : J.string? body = some (Operator.relation relation).name)
    (hparts : allParts? J ["lhs", "rhs"] form = some [lhs, rhs])
    (hl : ofSource? J room lhs = some l) (hr : ofSource? J room rhs = some r) :
    ofSource? J (room + 2) (kindForm body form) = some (.relation relation l r) := by
  rw [ofSource?, string?_kindForm, member?_kindForm hk]
  simp only [Option.bind_eq_bind, Option.bind_some, hparts, hl, hr]
  cases relation <;> rfl

theorem read_loop {mode : LoopMode} {v : Variable} {var target inner : Source}
    (hk : J.string? body = some (loopTag mode))
    (hparts : allParts? J ["var", "target", "body"] form = some [var, target, inner])
    (hvar : J.Reads var (variableJson v)) (hl : ofSource? J room target = some l)
    (hr : ofSource? J room inner = some r) :
    ofSource? J (room + 2) (kindForm body form) = some (.loop mode v l r) := by
  rw [ofSource?, string?_kindForm, member?_kindForm hk]
  simp only [Option.bind_eq_bind, Option.bind_some, hparts, var?_reads hvar, hl, hr]
  cases mode <;> rfl

end Kinds

/-! ## 5. Round trips -/

section RoundTrips

variable {J : Codec}

mutual

/-- **What reads as an expression is written is read as the expression**, if there is room for its
    containers. -/
theorem ofSource?_reads (hJ : J.Lawful) : ∀ {e : Expr} {form : Source} {room : Nat},
    e.toJson.Exact → J.Reads form e.toJson → e.toJson.depth ≤ room →
      ofSource? J room form = some e
  | .truth b, form, room, _, hr, _ => by
    have hstring : string? J form = some (if b then "true" else "false") := string?_reads hr
    cases room <;> rw [ofSource?, hstring] <;> cases b <;> rfl
  | .value v, form, room, h, hr, hd => by
    obtain ⟨room, rfl, hkind⟩ := room_tagged hd
    obtain ⟨body, inner, rfl, hk, hr⟩ := exists_kindForm hr
    exact read_value hk (hJ.valued h.2.1 hr hkind)
  | .field f, form, room, h, hr, hd => by
    obtain ⟨room, rfl, hkind⟩ := room_tagged hd
    obtain ⟨room, rfl, hmembers⟩ := room_object hkind
    obtain ⟨room, rfl, -⟩ := room_array (room_members (room_members hmembers).2).1
    obtain ⟨body, inner, rfl, hk, hr⟩ := exists_kindForm hr
    exact read_field hk (field?_reads hr)
  | .func f params, form, room, h, hr, hd => by
    obtain ⟨room, rfl, hkind⟩ := room_tagged hd
    obtain ⟨room, rfl, hmembers⟩ := room_object hkind
    obtain ⟨room, rfl, helements⟩ := room_array (room_members (room_members hmembers).2).1
    obtain ⟨-, -, hparams, -⟩ := h.2.1
    obtain ⟨body, inner, rfl, hk, hr⟩ := exists_kindForm hr
    obtain ⟨name, list, hparts, hname, hlist⟩ := two_reads (by decide) hr
    cases list with
    | array forms => exact read_func hk hparts hname (ofSource?_readsAll hJ hparams hlist helements)
    | _ => cases hlist
  | .not e, form, room, h, hr, hd => by
    obtain ⟨room, rfl, hkind⟩ := room_tagged hd
    obtain ⟨body, inner, rfl, hk, hr⟩ := exists_kindForm hr
    exact read_holder (by simp [holders]) hk (ofSource?_reads hJ h.2.1 hr hkind)
  | .and es, form, room, h, hr, hd => by
    obtain ⟨room, rfl, hkind⟩ := room_tagged hd
    obtain ⟨room, rfl, helements⟩ := room_array hkind
    obtain ⟨body, inner, rfl, hk, hr⟩ := exists_kindForm hr
    cases inner with
    | array forms =>
      exact read_connective (by simp [connectives]) hk (ofSource?_readsAll hJ h.2.1 hr helements)
    | _ => cases hr
  | .or es, form, room, h, hr, hd => by
    obtain ⟨room, rfl, hkind⟩ := room_tagged hd
    obtain ⟨room, rfl, helements⟩ := room_array hkind
    obtain ⟨body, inner, rfl, hk, hr⟩ := exists_kindForm hr
    cases inner with
    | array forms =>
      exact read_connective (by simp [connectives]) hk (ofSource?_readsAll hJ h.2.1 hr helements)
    | _ => cases hr
  | .loop mode var target e, form, room, h, hr, hd => by
    obtain ⟨room, rfl, hkind⟩ := room_tagged hd
    obtain ⟨room, rfl, hmembers⟩ := room_object hkind
    obtain ⟨hdtarget, hdbody⟩ := room_members (room_members hmembers).2
    obtain ⟨-, -, htarget, hbody, -⟩ := h.2.1
    obtain ⟨body, inner, rfl, hk, hr⟩ := exists_kindForm hr
    obtain ⟨forms, hparts, hreads⟩ :=
      allParts?_reads hr (by decide : ["var", "target", "body"].Nodup)
    obtain _ | ⟨hrvar, _ | ⟨hrtarget, _ | ⟨hrbody, _ | _⟩⟩⟩ := hreads
    exact read_loop hk hparts hrvar (ofSource?_reads hJ htarget hrtarget hdtarget)
      (ofSource?_reads hJ hbody hrbody (room_members hdbody).1)
  | .present e, form, room, h, hr, hd => by
    obtain ⟨room, rfl, hkind⟩ := room_tagged hd
    obtain ⟨body, inner, rfl, hk, hr⟩ := exists_kindForm hr
    exact read_holder (by simp [holders]) hk (ofSource?_reads hJ h.2.1 hr hkind)
  | .absent e, form, room, h, hr, hd => by
    obtain ⟨room, rfl, hkind⟩ := room_tagged hd
    obtain ⟨body, inner, rfl, hk, hr⟩ := exists_kindForm hr
    exact read_holder (by simp [holders]) hk (ofSource?_reads hJ h.2.1 hr hkind)
  | .relation r lhs rhs, form, room, h, hr, hd => by
    obtain ⟨room, rfl, hkind⟩ := room_tagged hd
    obtain ⟨room, rfl, hmembers⟩ := room_object hkind
    obtain ⟨hdlhs, hdrhs⟩ := room_members hmembers
    obtain ⟨-, hlhs, hrhs, -⟩ := h.2.1
    obtain ⟨body, inner, rfl, hk, hr⟩ := exists_kindForm hr
    obtain ⟨first, second, hparts, hrlhs, hrrhs⟩ := two_reads (by decide) hr
    exact read_relation hk hparts (ofSource?_reads hJ hlhs hrlhs hdlhs)
      (ofSource?_reads hJ hrhs hrrhs (room_members hdrhs).1)
  | .like lhs rhs, form, room, h, hr, hd => by
    obtain ⟨room, rfl, hkind⟩ := room_tagged hd
    obtain ⟨room, rfl, hmembers⟩ := room_object hkind
    obtain ⟨hdlhs, hdrhs⟩ := room_members hmembers
    obtain ⟨-, hlhs, hrhs, -⟩ := h.2.1
    obtain ⟨body, inner, rfl, hk, hr⟩ := exists_kindForm hr
    obtain ⟨first, second, hparts, hrlhs, hrrhs⟩ := two_reads (by decide) hr
    exact read_like hk hparts (ofSource?_reads hJ hlhs hrlhs hdlhs)
      (ofSource?_reads hJ hrhs hrrhs (room_members hdrhs).1)

theorem ofSource?_readsAll (hJ : J.Lawful) : ∀ {es : List Expr} {forms : List Source} {room : Nat},
    AllExact (toJsons es) → J.ReadsAll forms (toJsons es) → depthOfAll (toJsons es) ≤ room →
      forms.mapM (ofSource? J room) = some es
  | [], forms, _, _, hr, _ => by
    cases forms with
    | nil => rfl
    | cons _ _ => cases hr
  | e :: rest, forms, room, h, hr, hd => by
    cases forms with
    | nil => cases hr
    | cons form forms =>
      rw [toJsons, depthOfAll, Nat.max_le] at hd
      rw [List.mapM_cons, ofSource?_reads hJ h.1 hr.1 hd.1, ofSource?_readsAll hJ h.2 hr.2 hd.2]
      rfl

end

/-- What is written is read. -/
theorem ofText?_of_exact (hJ : J.Lawful) {e : Expr} (h : ∀ v ∈ e.literals, v.Exact)
    (hd : e.toJson.depth ≤ mostContainers) : ofText? J (e.toText J) = some e := by
  have hexact := exact_toJson h
  obtain ⟨form, hform, hreads⟩ := hJ.formed hexact
  have hroom := Nat.le_trans hd hJ.roomy
  rw [ofText?, toText, Codec.toText, Utf8.bytes, String.toList_ofList, hform,
    Option.bind_eq_bind, Option.bind_some, ofSource?_reads hJ hexact hreads hroom]

/-- **Expressions are read as they were written**, so no two of them have one text. Their literals
    are without fractions, and containers stand inside one another no deeper than they may. -/
theorem ofText?_toText (hJ : J.Lawful) (e : Expr) (h : ∀ v ∈ e.literals, v.Exact)
    (hd : e.toJson.depth ≤ mostContainers) : ofText? J (e.toText J) = some e ∧
      ∀ e' : Expr, (∀ v ∈ e'.literals, v.Exact) → e'.toJson.depth ≤ mostContainers →
        e'.toText J = e.toText J → e' = e := by
  have hread := ofText?_of_exact hJ h hd
  refine ⟨hread, fun e' h' hd' heq => ?_⟩
  have hread' := ofText?_of_exact hJ h' hd'
  rw [heq, hread] at hread'
  exact (Option.some.inj hread').symm

end RoundTrips

/-- A loop and an empty list, with literals of every sort and a member that comes before another
    against the order of names. -/
def assorted : Expr :=
  .and [.loop .anyEvery 1 (.field ⟨Variable.root, ["tags"]⟩)
      (.relation .equals (.field ⟨1, []⟩)
        (.value (.object [("b", .string "\"\x01"), ("a", .array [.null, .bool true,
          .number (.natural 18446744073709551615), .number (.negative (-1))])]))),
    .or [], .not (.like (.func .neg [.truth false]) (.value (.string "^a")))]

theorem ofText?_toText_assorted : (∀ v ∈ assorted.literals, v.Exact) ∧
    assorted.toJson.depth ≤ mostContainers ∧
      ofText? .standard (assorted.toText .standard) = some assorted := by
  have hexact : ∀ v ∈ assorted.literals, v.Exact := by
    simp [assorted, literals, literalsOfAll, Exact, AllExact, MembersExact, JsonNumber.Exact]
  have hdepth : assorted.toJson.depth ≤ mostContainers := by decide
  exact ⟨hexact, hdepth, (ofText?_toText Codec.lawful_standard assorted hexact hdepth).1⟩

end Expr

end Sift
