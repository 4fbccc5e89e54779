import ClassNaming.Proofs.Files.Path

/-!
# Ways through a tree

A path is followed to its last part through folders and links only.  A *way* is such a passage, told
without fuel and without an aim: every name on it is that of a folder or of a link.  Whatever a path
is followed for, all of it but the end is a way.

A way depends on the folders and links that it passes and on nothing else.  So it remains when a
tree grows or files are written, and it is the only one.

## Main Definitions

* `Way` - a passage along steps through folders and links
* `SubWays` - a view with all folders and links of another one
* `Leads` - where the parts before the last one of a path lead
* `Names` - the spot that a path names, in the folder that its other parts lead to

## Main Results

* `resolveFrom_of_way`, `way_of_resolveFrom` - following a path is taking a way
* `Way.mono`, `Way.unique`, `Way.meet` - what a way depends on
* `Names.resolve_cases` - where a path leads, by what lies at the spot that it names
-/

namespace ClassNaming

/-- A passage along steps from one spot to another one, through folders and links.  At most so many
links may be followed on it, and so many fewer remain at its end. -/
inductive Way (f : Spot → Option Item) : Nat → Spot → List PathStep → Nat → Spot → Prop
  | done {links : Nat} {spot : Spot} : Way f links spot [] links spot
  | close {links left : Nat} {spot stop : Spot} {steps : List PathStep}
      (rest : Way f links spot steps left stop) : Way f links spot (.close :: steps) left stop
  | root {links left : Nat} {spot stop : Spot} {steps : List PathStep}
      (rest : Way f links [] steps left stop) : Way f links spot (.follow .root :: steps) left stop
  | here {links left : Nat} {spot stop : Spot} {steps : List PathStep}
      (rest : Way f links spot steps left stop) :
      Way f links spot (.follow .here :: steps) left stop
  | up {links left : Nat} {spot stop : Spot} {steps : List PathStep}
      (rest : Way f links spot.dropLast steps left stop) :
      Way f links spot (.follow .up :: steps) left stop
  | folder {links left : Nat} {spot stop : Spot} {steps : List PathStep} {name : String}
      (size : name.utf8ByteSize ≤ nameLimit) (found : f (spot ++ [name]) = some .folder)
      (rest : Way f links (spot ++ [name]) steps left stop) :
      Way f links spot (.follow (.name name) :: steps) left stop
  | link {links left : Nat} {spot stop : Spot} {steps : List PathStep} {name : String}
      {target : Path} (size : name.utf8ByteSize ≤ nameLimit)
      (found : f (spot ++ [name]) = some (.link target))
      (rest : Way f links spot (target.steps ++ steps) left stop) :
      Way f (links + 1) spot (.follow (.name name) :: steps) left stop

/-- Every folder and every link of one view is one of another view, too. -/
def SubWays (f g : Spot → Option Item) : Prop :=
  ∀ ⦃spot item⦄, (∀ content, item ≠ .file content) → f spot = some item → g spot = some item

/-- A view that has all items of another has its folders and links. -/
theorem Sub.subWays {f g : Spot → Option Item} (sub : Sub f g) : SubWays f g :=
  fun _ _ _ found => sub found

namespace Way

variable {f g : Spot → Option Item} {links left left' : Nat} {spot stop stop' : Spot}
  {steps : List PathStep}

/-- A way remains when all folders and links do. -/
theorem mono (sub : SubWays f g) (way : Way f links spot steps left stop) :
    Way g links spot steps left stop := by
  induction way with
  | done => exact .done
  | close _ ih => exact .close ih
  | root _ ih => exact .root ih
  | here _ ih => exact .here ih
  | up _ ih => exact .up ih
  | folder size found _ ih => exact .folder size (sub (by simp) found) ih
  | link size found _ ih => exact .link size (sub (by simp) found) ih

/-- There is only one way along given steps. -/
theorem unique (way : Way f links spot steps left stop)
    (other : Way f links spot steps left' stop') : left = left' ∧ stop = stop' := by
  induction way with
  | done => cases other with | done => exact ⟨rfl, rfl⟩
  | close _ ih => cases other with | close rest => exact ih rest
  | root _ ih => cases other with | root rest => exact ih rest
  | here _ ih => cases other with | here rest => exact ih rest
  | up _ ih => cases other with | up rest => exact ih rest
  | folder _ found _ ih =>
    cases other with
    | folder _ _ rest => exact ih rest
    | link _ linked _ => rw [found] at linked; cases linked
  | link _ found _ ih =>
    cases other with
    | folder _ foldered _ => rw [found] at foldered; cases foldered
    | link _ linked rest =>
      rw [found] at linked
      cases linked
      exact ih rest

/-- A way through two views of a tree passes what they share only. -/
theorem meet {h both : Spot → Option Item} (sub : Sub f h) (sub' : Sub g h)
    (shared : ∀ ⦃spot item⦄, f spot = some item → g spot = some item → both spot = some item)
    (way : Way f links spot steps left stop) (other : Way g links spot steps left' stop') :
    Way both links spot steps left stop := by
  induction way with
  | done => exact .done
  | close _ ih => cases other with | close rest => exact .close (ih rest)
  | root _ ih => cases other with | root rest => exact .root (ih rest)
  | here _ ih => cases other with | here rest => exact .here (ih rest)
  | up _ ih => cases other with | up rest => exact .up (ih rest)
  | folder size found _ ih =>
    cases other with
    | folder _ found' rest => exact .folder size (shared found found') (ih rest)
    | link _ linked _ => cases (sub found).symm.trans (sub' linked)
  | link size found _ ih =>
    cases other with
    | folder _ foldered _ => cases (sub found).symm.trans (sub' foldered)
    | link _ linked rest =>
      cases (sub found).symm.trans (sub' linked)
      exact .link size (shared found linked) (ih rest)

/-- A way goes on into a folder. -/
theorem concat {name : String} (way : Way f links spot steps left stop)
    (size : name.utf8ByteSize ≤ nameLimit) (found : f (stop ++ [name]) = some .folder) :
    Way f links spot (steps ++ [.follow (.name name)]) left (stop ++ [name]) := by
  induction way with
  | done => exact .folder size found .done
  | close _ ih => exact .close (ih found)
  | root _ ih => exact .root (ih found)
  | here _ ih => exact .here (ih found)
  | up _ ih => exact .up (ih found)
  | folder size' found' _ ih => exact .folder size' found' (ih found)
  | link size' found' _ ih =>
    have rest := ih found
    rw [List.append_assoc] at rest
    exact .link size' found' rest

end Way

/-- A path that can be followed, as far as its own text is concerned. -/
structure Path.Short (p : Path) : Prop where
  checked : p.check = .ok ()
  size : ∀ name, p.fileName? = some name → name.utf8ByteSize ≤ nameLimit

instance (p : Path) : Decidable p.Short :=
  decidable_of_iff (p.check = .ok () ∧
      p.fileName?.all (fun name => name.utf8ByteSize ≤ nameLimit) = true) <| by
    constructor
    · rintro ⟨checked, size⟩
      exact ⟨checked, fun name ends => by simpa [ends] using size⟩
    · rintro ⟨checked, size⟩
      refine ⟨checked, ?_⟩
      cases ends : p.fileName? with
      | none => rfl
      | some name => simpa using size name ends

namespace FileTree

variable {t : FileTree} {aim : Aim} {links left : Nat} {spot stop s : Spot} {name : String}
  {A B rest : List PathStep}

/-- Above a folder of an ordinary tree there is a folder. -/
theorem Ordinary.folder_dropLast (ordinary : t.Ordinary) (folder : t.item? spot = some .folder) :
    t.item? spot.dropLast = some .folder := by
  rcases List.eq_nil_or_concat spot with rfl | ⟨front, last, rfl⟩
  · exact folder
  · rw [List.concat_eq_append] at folder ⊢
    rw [List.dropLast_concat]
    exact (ordinary (by rw [folder]; rfl)).1

/-- In an ordinary tree a way from a folder ends at a folder. -/
theorem Ordinary.folder_of_way (ordinary : t.Ordinary) (folder : t.item? spot = some .folder)
    (way : Way t.item? links spot A left stop) : t.item? stop = some .folder := by
  induction way with
  | done => exact folder
  | close _ ih => exact ih folder
  | root _ ih => exact ih item?_root
  | here _ ih => exact ih folder
  | up _ ih => exact ih (ordinary.folder_dropLast folder)
  | folder _ found _ ih => exact ih found
  | link _ _ _ ih => exact ih folder

/-! ### Following a path -/

/-- A separator at the end leads nowhere else. -/
@[simp] theorem resolveFrom_close :
    t.resolveFrom aim links spot (.close :: rest) = t.resolveFrom aim links spot rest := by
  cases links <;> rfl

/-- A separator at the start leads to the root. -/
@[simp] theorem resolveFrom_root :
    t.resolveFrom aim links spot (.follow .root :: rest) = t.resolveFrom aim links [] rest := by
  cases links <;> rfl

/-- A dot leads nowhere else. -/
@[simp] theorem resolveFrom_here :
    t.resolveFrom aim links spot (.follow .here :: rest) = t.resolveFrom aim links spot rest := by
  cases links <;> rfl

/-- Two dots lead to the folder above. -/
@[simp] theorem resolveFrom_up :
    t.resolveFrom aim links spot (.follow .up :: rest)
      = t.resolveFrom aim links spot.dropLast rest := by
  cases links <;> rfl

/-- What following a name comes to. -/
theorem resolveFrom_name (open_ : aim = .writing → rest ≠ [.close]) :
    t.resolveFrom aim (links + 1) spot (.follow (.name name) :: rest) =
      if nameLimit < name.utf8ByteSize then .error .nameTooLong
      else
        match t.item? (spot ++ [name]) with
        | some .folder => t.resolveFrom aim (links + 1) (spot ++ [name]) rest
        | some (.link target) =>
          if rest = [] ∧ aim = .entry then .ok (spot ++ [name])
          else t.resolveFrom aim links spot (target.steps ++ rest)
        | some (.file _) => if rest = [] then .ok (spot ++ [name]) else .error .notDirectory
        | none => if rest = [] then .ok (spot ++ [name]) else .error .notFound := by
  rw [resolveFrom, advance, if_neg fun both => open_ both.1 both.2]
  by_cases long : nameLimit < name.utf8ByteSize
  · rw [if_pos long, if_pos long]
  rw [if_neg long, if_neg long]
  dsimp only
  rcases t.item? (spot ++ [name]) with _ | _ | _ | target
  · cases rest <;> rfl
  · rfl
  · cases rest <;> rfl
  · cases rest <;> cases aim <;> rfl

/-- Steps of which the first ones are behind do not end with a separator that stands alone. -/
private theorem append_ne_close (ends : B = [] → aim = .content)
    (open_ : aim = .writing → B ≠ [.close]) (A : List PathStep) :
    aim = .writing → A ++ B ≠ [.close] := by
  intro writing same
  cases A with
  | nil => exact open_ writing same
  | cons first later =>
    have none := List.append_eq_nil_iff.mp (List.cons.inj same).2
    rw [ends none.2] at writing
    cases writing

/-- Behind a way, a path is followed from where the way ends. -/
theorem resolveFrom_of_way (way : Way t.item? links spot A left stop)
    (ends : B = [] → aim = .content) (open_ : aim = .writing → B ≠ [.close]) :
    t.resolveFrom aim (links + 1) spot (A ++ B) = t.resolveFrom aim (left + 1) stop B := by
  have open' := append_ne_close ends open_
  induction way with
  | done => rfl
  | close _ ih => rw [List.cons_append, resolveFrom_close, ih]
  | root _ ih => rw [List.cons_append, resolveFrom_root, ih]
  | here _ ih => rw [List.cons_append, resolveFrom_here, ih]
  | up _ ih => rw [List.cons_append, resolveFrom_up, ih]
  | folder size found _ ih =>
    rw [List.cons_append, resolveFrom_name (open' _), if_neg (Nat.not_lt.mpr size), found]
    exact ih
  | link size found _ ih =>
    rw [List.cons_append, resolveFrom_name (open' _), if_neg (Nat.not_lt.mpr size), found]
    dsimp only
    rw [if_neg, ← List.append_assoc]
    · exact ih
    · rintro ⟨none, entry⟩
      rw [ends (List.append_eq_nil_iff.mp none).2] at entry
      cases entry

/-- What was followed to its end took a way to any step before it. -/
theorem way_of_resolveFrom (ends : B = [] → aim = .content ∧ t.item? s = some .folder)
    (open_ : aim = .writing → B ≠ [.close])
    (found : t.resolveFrom aim links spot (A ++ B) = .ok s) :
    ∃ before left stop, links = before + 1 ∧ Way t.item? before spot A left stop ∧
      t.resolveFrom aim (left + 1) stop B = .ok s := by
  have open' := append_ne_close (fun none => (ends none).1) open_
  -- By induction on the links that may be followed, and along the steps between two of them.
  induction links generalizing spot A with
  | zero => cases found
  | succ links next =>
    refine ⟨links, ?_⟩
    induction A generalizing spot with
    | nil => exact ⟨links, spot, rfl, .done, found⟩
    | cons step steps ih =>
      rw [List.cons_append] at found
      rcases step with (_ | _ | _ | name) | _
      · obtain ⟨left, stop, -, way, reached⟩ := ih (resolveFrom_root ▸ found)
        exact ⟨left, stop, rfl, .root way, reached⟩
      · obtain ⟨left, stop, -, way, reached⟩ := ih (resolveFrom_here ▸ found)
        exact ⟨left, stop, rfl, .here way, reached⟩
      · obtain ⟨left, stop, -, way, reached⟩ := ih (resolveFrom_up ▸ found)
        exact ⟨left, stop, rfl, .up way, reached⟩
      · rw [resolveFrom_name (open' _)] at found
        split at found
        · cases found
        rename_i size
        -- The walk goes on behind this name, since no folder would be there if it ended.
        have goes {e : IoError} : t.item? (spot ++ [name]) ≠ some .folder →
            (if steps ++ B = [] then .ok (spot ++ [name]) else .error e) ≠ Except.ok s := by
          intro no
          split
          · rename_i none
            rintro ⟨⟩
            exact no (ends (List.append_eq_nil_iff.mp none).2).2
          · rintro ⟨⟩
        split at found
        · rename_i folder
          obtain ⟨left, stop, -, way, reached⟩ := ih found
          exact ⟨left, stop, rfl, .folder (Nat.not_lt.mp size) folder way, reached⟩
        · rename_i target linked
          rw [if_neg, ← List.append_assoc] at found
          · obtain ⟨before, left, stop, rfl, way, reached⟩ := next found
            exact ⟨left, stop, rfl, .link (Nat.not_lt.mp size) linked way, reached⟩
          · rintro ⟨none, entry⟩
            rw [(ends (List.append_eq_nil_iff.mp none).2).1] at entry
            cases entry
        · rename_i file
          exact absurd found (goes (by rw [file]; rintro ⟨⟩))
        · rename_i vacant
          exact absurd found (goes (by rw [vacant]; rintro ⟨⟩))
      · obtain ⟨left, stop, -, way, reached⟩ := ih (resolveFrom_close ▸ found)
        exact ⟨left, stop, rfl, .close way, reached⟩

/-- Something lies where a way leads, even if its last link is not followed. -/
theorem Ordinary.isSome_of_way (ordinary : t.Ordinary) (folder : t.item? spot = some .folder)
    (way : Way t.item? links spot A left stop)
    (found : t.resolveFrom .entry (links + 1) spot A = .ok s) : (t.item? s).isSome := by
  induction way with
  | done =>
    obtain rfl := Except.ok.inj found
    rw [folder]
    rfl
  | close _ ih => exact ih folder (resolveFrom_close ▸ found)
  | root _ ih => exact ih item?_root (resolveFrom_root ▸ found)
  | here _ ih => exact ih folder (resolveFrom_here ▸ found)
  | up _ ih => exact ih (ordinary.folder_dropLast folder) (resolveFrom_up ▸ found)
  | folder size there _ ih =>
    rw [resolveFrom_name (by simp), if_neg (Nat.not_lt.mpr size), there] at found
    exact ih there found
  | link size there _ ih =>
    rw [resolveFrom_name (by simp), if_neg (Nat.not_lt.mpr size), there] at found
    dsimp only at found
    split at found
    · rw [← Except.ok.inj found, there]
      rfl
    · exact ih folder found

/-! ### What a path names -/

/-- Where the parts before the last one of a path lead. -/
def Leads (f : Spot → Option Item) (parts : List PathPart) (folder : Spot) : Prop :=
  ∃ left, Way f linkLimit [] (parts.map .follow) left folder

/-- The spot that a path names: in the folder that its other parts lead to, under its last part. -/
def Names (f : Spot → Option Item) (p : Path) (spot : Spot) : Prop :=
  ∃ parts name folder, p.parts = parts ++ [.name name] ∧ Leads f parts folder ∧
    spot = folder ++ [name]

/-- A path leads the same way wherever the folders and links are the same. -/
theorem Leads.congr {f g : Spot → Option Item} {parts : List PathPart} {folder : Spot}
    (sub : SubWays f g) (leads : Leads f parts folder) : Leads g parts folder := by
  obtain ⟨left, way⟩ := leads
  exact ⟨left, way.mono sub⟩

/-- It does so in a tree with more items. -/
theorem Leads.mono {f g : Spot → Option Item} {parts : List PathPart} {folder : Spot}
    (sub : Sub f g) (leads : Leads f parts folder) : Leads g parts folder :=
  leads.congr sub.subWays

/-- Names lead to one folder only. -/
theorem Leads.unique {f : Spot → Option Item} {parts : List PathPart} {folder folder' : Spot}
    (leads : Leads f parts folder) (other : Leads f parts folder') : folder = folder' := by
  obtain ⟨left, way⟩ := leads
  obtain ⟨left', way'⟩ := other
  exact (way.unique way').2

/-- What leads somewhere in two views of a tree leads there through what they share. -/
theorem Leads.meet {f g h both : Spot → Option Item} {parts : List PathPart}
    {folder folder' : Spot} (sub : Sub f h) (sub' : Sub g h)
    (shared : ∀ ⦃spot item⦄, f spot = some item → g spot = some item → both spot = some item)
    (leads : Leads f parts folder) (other : Leads g parts folder') : Leads both parts folder := by
  obtain ⟨left, way⟩ := leads
  obtain ⟨left', way'⟩ := other
  exact ⟨left, way.meet sub sub' shared way'⟩

/-- Below a folder of an ordinary tree there are ways to all folders. -/
theorem Leads.below {parts : List PathPart} {folder : Spot} {names : List String}
    (leads : Leads t.item? parts folder) (ordinary : t.Ordinary)
    (there : t.item? (folder ++ names) = some .folder) :
    Leads t.item? (parts ++ names.map .name) (folder ++ names) := by
  induction names using List.reverseRecOn with
  | nil => simpa using leads
  | append_singleton front name ih =>
    rw [← List.append_assoc] at there ⊢
    obtain ⟨above, -, size⟩ := ordinary (by rw [there]; rfl)
    obtain ⟨left, way⟩ := ih above
    have longer := way.concat size there
    rw [List.map_append, ← List.append_assoc]
    refine ⟨left, ?_⟩
    rw [List.map_append]
    exact longer

/-- A path that names something keeps naming it when more is there. -/
theorem Names.mono {f g : Spot → Option Item} {p : Path} (sub : Sub f g) (names : Names f p spot) :
    Names g p spot := by
  obtain ⟨parts, name, folder, split, leads, rfl⟩ := names
  exact ⟨parts, name, folder, split, leads.mono sub, rfl⟩

/-- What lies in a folder is named by the path of a folder above with the names behind it. -/
theorem Leads.names_below {p : Path} {folder : Spot} {last : String} {names : List String}
    (leads : Leads t.item? p.parts folder) (ordinary : t.Ordinary) (named : IsName last)
    (there : t.item? (folder ++ names) = some .folder) :
    Names t.item? (p.below (names ++ [last])) (folder ++ (names ++ [last])) := by
  have spelled : ∀ name ∈ names, IsName name := ordinary.isName (by rw [there]; rfl)
  refine ⟨p.parts ++ names.map .name, last, folder ++ names, ?_, leads.below ordinary there,
    by simp⟩
  rw [Path.below_concat, Path.parts_join named, Path.parts_below spelled]

/-- A path that names a folder leads to it. -/
theorem Names.leads {p : Path} (names : Names t.item? p spot) (ordinary : t.Ordinary)
    (there : t.item? spot = some .folder) : Leads t.item? p.parts spot := by
  obtain ⟨parts, name, folder, split, leads, rfl⟩ := names
  have into : Leads t.item? (parts ++ [name].map .name) (folder ++ [name]) :=
    leads.below ordinary there
  rwa [split]

/-- A path names one spot. -/
theorem Names.unique {f : Spot → Option Item} {p : Path} {other : Spot} (names : Names f p spot)
    (names' : Names f p other) : spot = other := by
  obtain ⟨parts, name, folder, split, leads, rfl⟩ := names
  obtain ⟨parts', name', folder', split', leads', rfl⟩ := names'
  have same := List.append_inj' (split.symm.trans split') rfl
  cases same.1
  cases same.2
  rw [leads.unique leads']

/-- What names a spot has a name among its parts. -/
theorem Names.mem_parts {f : Spot → Option Item} {p : Path} (names : Names f p spot) :
    ∃ name, .name name ∈ p.parts := by
  obtain ⟨parts, name, _, split, -, -⟩ := names
  rw [split]
  exact ⟨name, List.mem_append_right _ List.mem_cons_self⟩

/-- What a path names depends on its parts only. -/
theorem Names.congr {f : Spot → Option Item} {p q : Path} (same : q.parts = p.parts)
    (names : Names f p spot) : Names f q spot := by
  unfold Names at names ⊢
  rwa [same]

/-- What a path names is not the root. -/
theorem Names.ne_root {f : Spot → Option Item} {p : Path} (names : Names f p spot) :
    spot ≠ [] := by
  obtain ⟨_, _, _, _, _, rfl⟩ := names
  simp

/-- Whatever a path is followed for, its last part is followed from the folder that it is in. -/
theorem Names.resolveFrom {p : Path} (names : Names t.item? p spot) :
    ∃ links folder name, spot = folder ++ [name] ∧ p.fileName? = some name ∧ ∀ aim,
      t.resolveFrom aim (linkLimit + 1) [] p.steps
        = t.resolveFrom aim (links + 1) folder (.follow (.name name) :: p.closing) := by
  obtain ⟨parts, name, folder, split, ⟨links, way⟩, rfl⟩ := names
  refine ⟨links, folder, name, rfl, ?_, fun aim => ?_⟩
  · exact Path.fileName?_of_parts split
  rw [Path.steps, split, List.map_append, List.append_assoc]
  exact resolveFrom_of_way way (by simp) (by simp)

/-- A path whose last part is a name and that leads to something has a way to that part. -/
theorem names_of_resolveFrom {p : Path} {parts : List PathPart}
    (split : p.parts = parts ++ [.name name])
    (found : t.resolveFrom aim (linkLimit + 1) [] p.steps = .ok s) :
    ∃ folder, Leads t.item? parts folder ∧ Names t.item? p (folder ++ [name]) := by
  rw [Path.steps, split, List.map_append, List.append_assoc] at found
  obtain ⟨before, left, folder, same, way, -⟩ := way_of_resolveFrom (by simp) (by simp) found
  obtain rfl : linkLimit = before := Nat.succ.inj same
  exact ⟨folder, ⟨left, way⟩, parts, name, folder, split, ⟨left, way⟩, rfl⟩

/-- A path that ends with a separator is not followed to write a file. -/
theorem Names.not_close {p : Path} (names : Names t.item? p spot)
    (found : t.resolveFrom aim (linkLimit + 1) [] p.steps = .ok s) :
    aim = .writing → p.closing ≠ [.close] := by
  intro writing closed
  obtain ⟨links, folder, name, -, -, follows⟩ := names.resolveFrom
  rw [follows, writing, closed, FileTree.resolveFrom, advance, if_pos ⟨rfl, rfl⟩] at found
  cases found

/-- Where a path leads, by what lies at the spot that it names.  It leads elsewhere only through a
link. -/
theorem Names.resolve_cases {p : Path} (names : Names t.item? p spot)
    (found : t.resolveFrom aim (linkLimit + 1) [] p.steps = .ok s) :
    s = spot ∧ (p.closing = [] ∨ t.item? spot = some .folder) ∨
      (∃ target, t.item? spot = some (.link target)) ∧ (p.closing = [] → aim ≠ .entry) := by
  have open_ := names.not_close found
  obtain ⟨links, folder, name, rfl, -, follows⟩ := names.resolveFrom
  rw [follows, resolveFrom_name open_] at found
  split at found
  · cases found
  split at found
  · rename_i there
    refine .inl ⟨?_, .inr there⟩
    rcases p.closing_cases with none | close | here
    · rw [none] at found
      exact (Except.ok.inj found).symm
    · rw [close] at found
      exact (Except.ok.inj found).symm
    · rw [here] at found
      exact (Except.ok.inj found).symm
  · rename_i target linked
    by_cases ended : p.closing = [] ∧ aim = .entry
    · rw [if_pos ended] at found
      exact .inl ⟨(Except.ok.inj found).symm, .inl ended.1⟩
    · exact .inr ⟨⟨target, linked⟩, fun none entry => ended ⟨none, entry⟩⟩
  · split at found
    · rename_i none
      exact .inl ⟨(Except.ok.inj found).symm, .inl none⟩
    · cases found
  · split at found
    · rename_i none
      exact .inl ⟨(Except.ok.inj found).symm, .inl none⟩
    · cases found

/-- What a path leads to that asks for a folder is a folder. -/
theorem Ordinary.folder_of_closing {p : Path} (ordinary : t.Ordinary)
    (names : Names t.item? p spot) (asks : p.closing ≠ [])
    (found : t.resolveFrom aim (linkLimit + 1) [] p.steps = .ok s) :
    t.item? s = some .folder := by
  obtain ⟨before, left, stop, -, way, reached⟩ :=
    way_of_resolveFrom (A := p.parts.map .follow) (fun none => absurd none asks)
      (names.not_close found) found
  have folder := ordinary.folder_of_way item?_root way
  rcases p.closing_cases with none | close | here
  · exact absurd none asks
  · rw [close] at reached
    rwa [← Except.ok.inj reached]
  · rw [here] at reached
    rwa [← Except.ok.inj reached]

/-! ### Finding what a path leads to -/

variable {p : Path} {item : Item}

/-- A path is resolved if it can be followed and each step of it leads on. -/
theorem resolve_eq_ok {aim : Aim} : t.resolve aim p = .ok s ↔
    p.check = .ok () ∧ t.resolveFrom aim (linkLimit + 1) [] p.steps = .ok s := by
  rw [resolve]
  cases p.check <;> simp

/-- A closed path is resolved without what its end asks for. -/
theorem resolveClosed_eq_ok : t.resolveClosed p = .ok s ↔
    p.check = .ok () ∧ t.resolveFrom .entry (linkLimit + 1) [] p.closed.steps = .ok s := by
  rw [resolveClosed]
  cases p.check <;> simp

theorem itemAt_eq_ok {found : Except IoError Spot} :
    t.itemAt found = .ok (s, item) ↔ found = .ok s ∧ t.item? s = some item := by
  cases found with
  | error e => simp [itemAt]
  | ok other =>
    rw [itemAt]
    cases there : t.item? other with
    | none =>
      simp only [reduceCtorEq, Except.ok.injEq, false_iff, not_and]
      rintro rfl same
      rw [there] at same
      cases same
    | some item' =>
      simp only [Except.ok.injEq, Prod.mk.injEq]
      refine and_congr_right ?_
      rintro rfl
      rw [there, Option.some.injEq]

/-- What a path finds is the item at the spot that it is resolved to. -/
theorem find_eq_ok :
    t.find aim p = .ok (s, item) ↔ t.resolve aim p = .ok s ∧ t.item? s = some item := itemAt_eq_ok

/-- The parts of a path to a folder lead to it. -/
theorem leads_of_find (found : t.find .content p = .ok (s, .folder)) :
    Leads t.item? p.parts s := by
  obtain ⟨resolved, there⟩ := find_eq_ok.mp found
  obtain ⟨before, left, stop, same, way, reached⟩ := way_of_resolveFrom
    (A := p.parts.map .follow) (fun _ => ⟨rfl, there⟩) (by simp) (resolve_eq_ok.mp resolved).2
  obtain rfl : linkLimit = before := Nat.succ.inj same
  rcases p.closing_cases with none | close | here
  · rw [none] at reached
    exact Except.ok.inj reached ▸ ⟨left, way⟩
  · rw [close] at reached
    exact Except.ok.inj reached ▸ ⟨left, way⟩
  · rw [here] at reached
    exact Except.ok.inj reached ▸ ⟨left, way⟩

/-- The last name of what was followed to its end is short enough. -/
theorem Names.size (names : Names t.item? p spot)
    (found : t.resolveFrom aim (linkLimit + 1) [] p.steps = .ok s) :
    ∀ name, p.fileName? = some name → name.utf8ByteSize ≤ nameLimit := by
  intro name ends
  have open_ := names.not_close found
  obtain ⟨links, folder, name', -, ends', follows⟩ := names.resolveFrom
  obtain rfl : name' = name := Option.some.inj (ends'.symm.trans ends)
  rw [follows, resolveFrom_name open_] at found
  by_contra long
  rw [if_pos (Nat.not_le.mp long)] at found
  cases found

/-- A path that can be resolved is short. -/
theorem Names.short (names : Names t.item? p spot) (found : t.resolve aim p = .ok s) :
    p.Short := by
  obtain ⟨checked, found⟩ := resolve_eq_ok.mp found
  exact ⟨checked, names.size found⟩

/-- A path that asks for nothing beyond its parts leads to the spot that it names. -/
theorem Names.resolveFrom_plain (names : Names t.item? p spot) (plain : p.closing = [])
    (size : ∀ name, p.fileName? = some name → name.utf8ByteSize ≤ nameLimit) :
    t.resolveFrom .entry (linkLimit + 1) [] p.steps = .ok spot := by
  obtain ⟨links, folder, name, rfl, ends, follows⟩ := names.resolveFrom
  rw [follows, plain, resolveFrom_name (by simp), if_neg (Nat.not_lt.mpr (size _ ends))]
  rcases t.item? _ with _ | _ | _ | target <;> rfl

/-- A short path with a plain end is resolved to the spot that it names. -/
theorem Names.resolve_plain (names : Names t.item? p spot) (plain : p.closing = [])
    (short : p.Short) : t.resolve .entry p = .ok spot :=
  resolve_eq_ok.mpr ⟨short.checked, names.resolveFrom_plain plain short.size⟩

/-- What is found lies at the spot that the path names, or there is a link at that spot. -/
theorem Names.find_cases (names : Names t.item? p spot) (found : t.find aim p = .ok (s, item)) :
    s = spot ∧ t.item? spot = some item ∧ (p.closing = [] ∨ item = .folder) ∨
      (∃ target, t.item? spot = some (.link target)) ∧ (p.closing = [] → aim ≠ .entry) := by
  obtain ⟨found, there⟩ := find_eq_ok.mp found
  rcases names.resolve_cases (resolve_eq_ok.mp found).2 with ⟨rfl, plain | folder⟩ | linked
  · exact .inl ⟨rfl, there, .inl plain⟩
  · exact .inl ⟨rfl, there, .inr (Option.some.inj (there.symm.trans folder))⟩
  · exact .inr linked

/-- What is found is also found where separators at the end do not count. -/
theorem Names.find_closed (names : Names t.item? p spot) (found : t.find .entry p = .ok (s, item)) :
    ∃ s' item', t.itemAt (t.resolveClosed p) = .ok (s', item') := by
  have ⟨name, mem⟩ := names.mem_parts
  have short := names.short (find_eq_ok.mp found).1
  have parts := Path.parts_closed mem
  have closing := Path.closing_closed mem
  by_cases here : p.closing = [.follow .here]
  · obtain ⟨resolved, there⟩ := find_eq_ok.mp found
    obtain ⟨checked, resolved⟩ := resolve_eq_ok.mp resolved
    rw [if_pos here] at closing
    have steps : p.closed.steps = p.steps := by
      rw [Path.steps, Path.steps, parts, closing, here]
    exact ⟨s, item, itemAt_eq_ok.mpr ⟨resolveClosed_eq_ok.mpr ⟨checked, steps ▸ resolved⟩, there⟩⟩
  · rw [if_neg here] at closing
    have resolved := (names.congr parts).resolveFrom_plain closing (by
      rw [Path.fileName?, parts]
      exact short.size)
    obtain ⟨item', there⟩ : ∃ item', t.item? spot = some item' := by
      rcases names.find_cases found with ⟨-, there, -⟩ | ⟨⟨target, linked⟩, -⟩
      · exact ⟨item, there⟩
      · exact ⟨_, linked⟩
    exact ⟨spot, item', itemAt_eq_ok.mpr
      ⟨resolveClosed_eq_ok.mpr ⟨short.checked, resolved⟩, there⟩⟩

end FileTree

end ClassNaming
