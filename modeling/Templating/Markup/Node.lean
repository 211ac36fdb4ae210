/-!
# Trees of nodes

The content of a document is a list of nodes: elements with attributes and
children, and leaves of four kinds. Text and attribute values are kept decoded.

The text of a node is what remains when the markup is taken away: text and CDATA
sections count, comments and processing instructions do not.
-/

namespace Templating.Markup

/-- A named value of an element. -/
structure Attribute where
  name : String
  value : String
  deriving DecidableEq, Repr, Inhabited

/-- A node of a tree. -/
inductive Node where
  /-- An element with its attributes and children, each in document order. -/
  | element (name : String) (attributes : List Attribute) (children : List Node)
  /-- Character data. -/
  | text (content : String)
  | comment (content : String)
  | cdata (content : String)
  /-- A processing instruction, without its delimiters. -/
  | instruction (content : String)
  deriving Inhabited

namespace Attribute

/-- The value of the first attribute called `name`. -/
def find (name : String) (attributes : List Attribute) : Option String :=
  (attributes.find? (·.name = name)).map (·.value)

/-- The attributes with `value` for `name`: in the place of the first attribute so
called, or at the end. -/
def set (name value : String) : List Attribute → List Attribute
  | [] => [⟨name, value⟩]
  | a :: rest => if a.name = name then ⟨name, value⟩ :: rest else a :: set name value rest

end Attribute

namespace Node

/-- The name of an element. -/
def name? : Node → Option String
  | element name _ _ => some name
  | _ => none

/-- The attributes of an element, and none for a leaf. -/
def attributes : Node → List Attribute
  | element _ attributes _ => attributes
  | _ => []

/-- The children of an element, and none for a leaf. -/
def children : Node → List Node
  | element _ _ children => children
  | _ => []

/-- The value of an attribute of an element. -/
def attribute? (node : Node) (name : String) : Option String :=
  Attribute.find name node.attributes

mutual

/-- The text of a node. -/
def textContent : Node → String
  | element _ _ children => textOfAll children
  | text content => content
  | cdata content => content
  | comment _ => ""
  | instruction _ => ""

/-- The text of a list of nodes, in order. -/
def textOfAll : List Node → String
  | [] => ""
  | node :: nodes => textContent node ++ textOfAll nodes

end

mutual

/-- Whether two nodes are the same. -/
def same : Node → Node → Bool
  | element n as cs, element n' as' cs' => n == n' && as == as' && sameAll cs cs'
  | text s, text s' => s == s'
  | comment s, comment s' => s == s'
  | cdata s, cdata s' => s == s'
  | instruction s, instruction s' => s == s'
  | _, _ => false

/-- Whether two lists hold the same nodes in the same order. -/
def sameAll : List Node → List Node → Bool
  | [], [] => true
  | n :: ns, m :: ms => same n m && sameAll ns ms
  | _, _ => false

end

mutual

theorem eq_of_same : ∀ {n m : Node}, same n m = true → n = m
  | element n as cs, m, h => by
    cases m <;> simp only [same, Bool.and_eq_true, beq_iff_eq] at h <;> try contradiction
    obtain ⟨⟨rfl, rfl⟩, h⟩ := h
    rw [eq_of_sameAll h]
  | text s, m, h => by cases m <;> simp_all [same]
  | comment s, m, h => by cases m <;> simp_all [same]
  | cdata s, m, h => by cases m <;> simp_all [same]
  | instruction s, m, h => by cases m <;> simp_all [same]

theorem eq_of_sameAll : ∀ {ns ms : List Node}, sameAll ns ms = true → ns = ms
  | [], ms, h => by cases ms <;> simp_all [sameAll]
  | n :: ns, ms, h => by
    cases ms with
    | nil => simp [sameAll] at h
    | cons m ms =>
      simp only [sameAll, Bool.and_eq_true] at h
      rw [eq_of_same h.1, eq_of_sameAll h.2]

end

mutual

theorem same_self : ∀ n : Node, same n n = true
  | element n as cs => by simp [same, sameAll_self cs]
  | text s => by simp [same]
  | comment s => by simp [same]
  | cdata s => by simp [same]
  | instruction s => by simp [same]

theorem sameAll_self : ∀ ns : List Node, sameAll ns ns = true
  | [] => rfl
  | n :: ns => by simp [sameAll, same_self n, sameAll_self ns]

end

instance : DecidableEq Node := fun n m =>
  if h : same n m then .isTrue (eq_of_same h)
  else .isFalse fun e => h (e ▸ same_self n)

end Node

/-- An element: a name, attributes and children, each in document order. -/
structure Element where
  name : String
  attributes : List Attribute := []
  children : List Node := []
  deriving DecidableEq, Inhabited

namespace Element

/-- The element that a node is. -/
def ofNode? : Node → Option Element
  | .element name attributes children => some ⟨name, attributes, children⟩
  | _ => none

/-- The element as a node. -/
def toNode (e : Element) : Node := .element e.name e.attributes e.children

/-- The value of an attribute. -/
def attribute? (e : Element) (name : String) : Option String := Attribute.find name e.attributes

/-- The element with an attribute set: replaced in its place, or added at the end. -/
def setAttribute (e : Element) (name value : String) : Element :=
  { e with attributes := Attribute.set name value e.attributes }

/-- The element with an attribute added at the end. -/
def addAttribute (e : Element) (name value : String) : Element :=
  { e with attributes := e.attributes ++ [⟨name, value⟩] }

/-- The element with other children. -/
def withChildren (e : Element) (children : List Node) : Element := { e with children }

/-- The child elements called `name`. -/
def childrenNamed (e : Element) (name : String) : List Element :=
  (e.children.filterMap ofNode?).filter (·.name = name)

/-- The text of the element's children. -/
def textContent (e : Element) : String := Node.textOfAll e.children

end Element

end Templating.Markup
