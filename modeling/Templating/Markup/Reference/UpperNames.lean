/-!
# Character names with a capital initial

The names of characters that begin with a capital letter, in order, each with the
code point that a reference to it stands for.
-/

namespace Templating.Markup.Reference

/-- The names that begin with `A`. -/
def upperA : List (String × Nat) :=
  [("AElig", 0xC6), ("AMP", 0x26), ("Aacute", 0xC1), ("Abreve", 0x10), ("Acirc", 0xC2),
    ("Acy", 0x41), ("Afr", 0x1D50), ("Agrave", 0xC0), ("Alpha", 0x39), ("Amacr", 0x10),
    ("And", 0x2A53), ("Aogon", 0x10), ("Aopf", 0x1D53), ("ApplyFunction", 0x2061), ("Aring", 0xC5),
    ("Ascr", 0x1D49), ("Assign", 0x2254), ("Atilde", 0xC3), ("Auml", 0xC4)]

/-- The names that begin with `B`. -/
def upperB : List (String × Nat) :=
  [("Backslash", 0x2216), ("Barv", 0x2AE7), ("Barwed", 0x2306), ("Bcy", 0x41), ("Because", 0x2235),
    ("Bernoullis", 0x212C), ("Beta", 0x39), ("Bfr", 0x1D50), ("Bopf", 0x1D53), ("Breve", 0x2D),
    ("Bscr", 0x212C), ("Bumpeq", 0x224E)]

/-- The names that begin with `C`. -/
def upperC : List (String × Nat) :=
  [("CHcy", 0x42), ("COPY", 0xA9), ("Cacute", 0x10), ("Cap", 0x22D2),
    ("CapitalDifferentialD", 0x2145), ("Cayleys", 0x212D), ("Ccaron", 0x10), ("Ccedil", 0xC7),
    ("Ccirc", 0x10), ("Cconint", 0x2230), ("Cdot", 0x10), ("Cedilla", 0xB8), ("CenterDot", 0xB7),
    ("Cfr", 0x212D), ("Chi", 0x3A), ("CircleDot", 0x2299), ("CircleMinus", 0x2296),
    ("CirclePlus", 0x2295), ("CircleTimes", 0x2297), ("ClockwiseContourIntegral", 0x2232),
    ("CloseCurlyDoubleQuote", 0x201D), ("CloseCurlyQuote", 0x2019), ("Colon", 0x2237),
    ("Colone", 0x2A74), ("Congruent", 0x2261), ("Conint", 0x222F), ("ContourIntegral", 0x222E),
    ("Copf", 0x2102), ("Coproduct", 0x2210), ("CounterClockwiseContourIntegral", 0x2233),
    ("Cross", 0x2A2F), ("Cscr", 0x1D49), ("Cup", 0x22D3), ("CupCap", 0x224D)]

/-- The names that begin with `D`. -/
def upperD : List (String × Nat) :=
  [("DD", 0x2145), ("DDotrahd", 0x2911), ("DJcy", 0x40), ("DScy", 0x40), ("DZcy", 0x40),
    ("Dagger", 0x2021), ("Darr", 0x21A1), ("Dashv", 0x2AE4), ("Dcaron", 0x10), ("Dcy", 0x41),
    ("Del", 0x2207), ("Delta", 0x39), ("Dfr", 0x1D50), ("DiacriticalAcute", 0xB4),
    ("DiacriticalDot", 0x2D), ("DiacriticalDoubleAcute", 0x2D), ("DiacriticalGrave", 0x60),
    ("DiacriticalTilde", 0x2D), ("Diamond", 0x22C4), ("DifferentialD", 0x2146), ("Dopf", 0x1D53),
    ("Dot", 0xA8), ("DotDot", 0x20DC), ("DotEqual", 0x2250), ("DoubleContourIntegral", 0x222F),
    ("DoubleDot", 0xA8), ("DoubleDownArrow", 0x21D3), ("DoubleLeftArrow", 0x21D0),
    ("DoubleLeftRightArrow", 0x21D4), ("DoubleLeftTee", 0x2AE4), ("DoubleLongLeftArrow", 0x27F8),
    ("DoubleLongLeftRightArrow", 0x27FA), ("DoubleLongRightArrow", 0x27F9),
    ("DoubleRightArrow", 0x21D2), ("DoubleRightTee", 0x22A8), ("DoubleUpArrow", 0x21D1),
    ("DoubleUpDownArrow", 0x21D5), ("DoubleVerticalBar", 0x2225), ("DownArrow", 0x2193),
    ("DownArrowBar", 0x2913), ("DownArrowUpArrow", 0x21F5), ("DownBreve", 0x31),
    ("DownLeftRightVector", 0x2950), ("DownLeftTeeVector", 0x295E), ("DownLeftVector", 0x21BD),
    ("DownLeftVectorBar", 0x2956), ("DownRightTeeVector", 0x295F), ("DownRightVector", 0x21C1),
    ("DownRightVectorBar", 0x2957), ("DownTee", 0x22A4), ("DownTeeArrow", 0x21A7),
    ("Downarrow", 0x21D3), ("Dscr", 0x1D49), ("Dstrok", 0x11)]

/-- The names that begin with `E`. -/
def upperE : List (String × Nat) :=
  [("ENG", 0x14), ("ETH", 0xD0), ("Eacute", 0xC9), ("Ecaron", 0x11), ("Ecirc", 0xCA),
    ("Ecy", 0x42), ("Edot", 0x11), ("Efr", 0x1D50), ("Egrave", 0xC8), ("Element", 0x2208),
    ("Emacr", 0x11), ("EmptySmallSquare", 0x25FB), ("EmptyVerySmallSquare", 0x25AB),
    ("Eogon", 0x11), ("Eopf", 0x1D53), ("Epsilon", 0x39), ("Equal", 0x2A75), ("EqualTilde", 0x2242),
    ("Equilibrium", 0x21CC), ("Escr", 0x2130), ("Esim", 0x2A73), ("Eta", 0x39), ("Euml", 0xCB),
    ("Exists", 0x2203), ("ExponentialE", 0x2147)]

/-- The names that begin with `F`. -/
def upperF : List (String × Nat) :=
  [("Fcy", 0x42), ("Ffr", 0x1D50), ("FilledSmallSquare", 0x25FC),
    ("FilledVerySmallSquare", 0x25AA), ("Fopf", 0x1D53), ("ForAll", 0x2200), ("Fouriertrf", 0x2131),
    ("Fscr", 0x2131)]

/-- The names that begin with `G`. -/
def upperG : List (String × Nat) :=
  [("GJcy", 0x40), ("GT", 0x3E), ("Gamma", 0x39), ("Gammad", 0x3D), ("Gbreve", 0x11),
    ("Gcedil", 0x12), ("Gcirc", 0x11), ("Gcy", 0x41), ("Gdot", 0x12), ("Gfr", 0x1D50),
    ("Gg", 0x22D9), ("Gopf", 0x1D53), ("GreaterEqual", 0x2265), ("GreaterEqualLess", 0x22DB),
    ("GreaterFullEqual", 0x2267), ("GreaterGreater", 0x2AA2), ("GreaterLess", 0x2277),
    ("GreaterSlantEqual", 0x2A7E), ("GreaterTilde", 0x2273), ("Gscr", 0x1D4A), ("Gt", 0x226B)]

/-- The names that begin with `H`. -/
def upperH : List (String × Nat) :=
  [("HARDcy", 0x42), ("Hacek", 0x2C), ("Hat", 0x5E), ("Hcirc", 0x12), ("Hfr", 0x210C),
    ("HilbertSpace", 0x210B), ("Hopf", 0x210D), ("HorizontalLine", 0x2500), ("Hscr", 0x210B),
    ("Hstrok", 0x12), ("HumpDownHump", 0x224E), ("HumpEqual", 0x224F)]

/-- The names that begin with `I`. -/
def upperI : List (String × Nat) :=
  [("IEcy", 0x41), ("IJlig", 0x13), ("IOcy", 0x40), ("Iacute", 0xCD), ("Icirc", 0xCE),
    ("Icy", 0x41), ("Idot", 0x13), ("Ifr", 0x2111), ("Igrave", 0xCC), ("Im", 0x2111),
    ("Imacr", 0x12), ("ImaginaryI", 0x2148), ("Implies", 0x21D2), ("Int", 0x222C),
    ("Integral", 0x222B), ("Intersection", 0x22C2), ("InvisibleComma", 0x2063),
    ("InvisibleTimes", 0x2062), ("Iogon", 0x12), ("Iopf", 0x1D54), ("Iota", 0x39), ("Iscr", 0x2110),
    ("Itilde", 0x12), ("Iukcy", 0x40), ("Iuml", 0xCF)]

/-- The names that begin with `J`. -/
def upperJ : List (String × Nat) :=
  [("Jcirc", 0x13), ("Jcy", 0x41), ("Jfr", 0x1D50), ("Jopf", 0x1D54), ("Jscr", 0x1D4A),
    ("Jsercy", 0x40), ("Jukcy", 0x40)]

/-- The names that begin with `K`. -/
def upperK : List (String × Nat) :=
  [("KHcy", 0x42), ("KJcy", 0x40), ("Kappa", 0x39), ("Kcedil", 0x13), ("Kcy", 0x41),
    ("Kfr", 0x1D50), ("Kopf", 0x1D54), ("Kscr", 0x1D4A)]

/-- The names that begin with `L`. -/
def upperL : List (String × Nat) :=
  [("LJcy", 0x40), ("LT", 0x3C), ("Lacute", 0x13), ("Lambda", 0x39), ("Lang", 0x27EA),
    ("Laplacetrf", 0x2112), ("Larr", 0x219E), ("Lcaron", 0x13), ("Lcedil", 0x13), ("Lcy", 0x41),
    ("LeftAngleBracket", 0x27E8), ("LeftArrow", 0x2190), ("LeftArrowBar", 0x21E4),
    ("LeftArrowRightArrow", 0x21C6), ("LeftCeiling", 0x2308), ("LeftDoubleBracket", 0x27E6),
    ("LeftDownTeeVector", 0x2961), ("LeftDownVector", 0x21C3), ("LeftDownVectorBar", 0x2959),
    ("LeftFloor", 0x230A), ("LeftRightArrow", 0x2194), ("LeftRightVector", 0x294E),
    ("LeftTee", 0x22A3), ("LeftTeeArrow", 0x21A4), ("LeftTeeVector", 0x295A),
    ("LeftTriangle", 0x22B2), ("LeftTriangleBar", 0x29CF), ("LeftTriangleEqual", 0x22B4),
    ("LeftUpDownVector", 0x2951), ("LeftUpTeeVector", 0x2960), ("LeftUpVector", 0x21BF),
    ("LeftUpVectorBar", 0x2958), ("LeftVector", 0x21BC), ("LeftVectorBar", 0x2952),
    ("Leftarrow", 0x21D0), ("Leftrightarrow", 0x21D4), ("LessEqualGreater", 0x22DA),
    ("LessFullEqual", 0x2266), ("LessGreater", 0x2276), ("LessLess", 0x2AA1),
    ("LessSlantEqual", 0x2A7D), ("LessTilde", 0x2272), ("Lfr", 0x1D50), ("Ll", 0x22D8),
    ("Lleftarrow", 0x21DA), ("Lmidot", 0x13), ("LongLeftArrow", 0x27F5),
    ("LongLeftRightArrow", 0x27F7), ("LongRightArrow", 0x27F6), ("Longleftarrow", 0x27F8),
    ("Longleftrightarrow", 0x27FA), ("Longrightarrow", 0x27F9), ("Lopf", 0x1D54),
    ("LowerLeftArrow", 0x2199), ("LowerRightArrow", 0x2198), ("Lscr", 0x2112), ("Lsh", 0x21B0),
    ("Lstrok", 0x14), ("Lt", 0x226A)]

/-- The names that begin with `M`. -/
def upperM : List (String × Nat) :=
  [("Map", 0x2905), ("Mcy", 0x41), ("MediumSpace", 0x205F), ("Mellintrf", 0x2133), ("Mfr", 0x1D51),
    ("MinusPlus", 0x2213), ("Mopf", 0x1D54), ("Mscr", 0x2133), ("Mu", 0x39)]

/-- The names that begin with `N`. -/
def upperN : List (String × Nat) :=
  [("NJcy", 0x40), ("Nacute", 0x14), ("Ncaron", 0x14), ("Ncedil", 0x14), ("Ncy", 0x41),
    ("NegativeMediumSpace", 0x200B), ("NegativeThickSpace", 0x200B), ("NegativeThinSpace", 0x200B),
    ("NegativeVeryThinSpace", 0x200B), ("NestedGreaterGreater", 0x226B), ("NestedLessLess", 0x226A),
    ("NewLine", 0xA), ("Nfr", 0x1D51), ("NoBreak", 0x2060), ("NonBreakingSpace", 0xA0),
    ("Nopf", 0x2115), ("Not", 0x2AEC), ("NotCongruent", 0x2262), ("NotCupCap", 0x226D),
    ("NotElement", 0x2209), ("NotEqual", 0x2260), ("NotExists", 0x2204), ("NotGreater", 0x226F),
    ("NotGreaterEqual", 0x2271), ("NotGreaterLess", 0x2279), ("NotGreaterTilde", 0x2275),
    ("NotLeftTriangle", 0x22EA), ("NotLeftTriangleEqual", 0x22EC), ("NotLess", 0x226E),
    ("NotLessEqual", 0x2270), ("NotLessGreater", 0x2278), ("NotLessTilde", 0x2274),
    ("NotPrecedes", 0x2280), ("NotPrecedesSlantEqual", 0x22E0), ("NotReverseElement", 0x220C),
    ("NotRightTriangle", 0x22EB), ("NotRightTriangleEqual", 0x22ED),
    ("NotSquareSubsetEqual", 0x22E2), ("NotSquareSupersetEqual", 0x22E3),
    ("NotSubsetEqual", 0x2288), ("NotSucceeds", 0x2281), ("NotSucceedsSlantEqual", 0x22E1),
    ("NotSupersetEqual", 0x2289), ("NotTilde", 0x2241), ("NotTildeEqual", 0x2244),
    ("NotTildeFullEqual", 0x2247), ("NotTildeTilde", 0x2249), ("NotVerticalBar", 0x2224),
    ("Nscr", 0x1D4A), ("Ntilde", 0xD1), ("Nu", 0x39)]

/-- The names that begin with `O`. -/
def upperO : List (String × Nat) :=
  [("OElig", 0x15), ("Oacute", 0xD3), ("Ocirc", 0xD4), ("Ocy", 0x41), ("Odblac", 0x15),
    ("Ofr", 0x1D51), ("Ograve", 0xD2), ("Omacr", 0x14), ("Omega", 0x3A), ("Omicron", 0x39),
    ("Oopf", 0x1D54), ("OpenCurlyDoubleQuote", 0x201C), ("OpenCurlyQuote", 0x2018), ("Or", 0x2A54),
    ("Oscr", 0x1D4A), ("Oslash", 0xD8), ("Otilde", 0xD5), ("Otimes", 0x2A37), ("Ouml", 0xD6),
    ("OverBar", 0xAF), ("OverBrace", 0x23DE), ("OverBracket", 0x23B4), ("OverParenthesis", 0x23DC)]

/-- The names that begin with `P`. -/
def upperP : List (String × Nat) :=
  [("PartialD", 0x2202), ("Pcy", 0x41), ("Pfr", 0x1D51), ("Phi", 0x3A), ("Pi", 0x3A),
    ("PlusMinus", 0xB1), ("Poincareplane", 0x210C), ("Popf", 0x2119), ("Pr", 0x2ABB),
    ("Precedes", 0x227A), ("PrecedesEqual", 0x2AAF), ("PrecedesSlantEqual", 0x227C),
    ("PrecedesTilde", 0x227E), ("Prime", 0x2033), ("Product", 0x220F), ("Proportion", 0x2237),
    ("Proportional", 0x221D), ("Pscr", 0x1D4A), ("Psi", 0x3A)]

/-- The names that begin with `Q`. -/
def upperQ : List (String × Nat) :=
  [("QUOT", 0x22), ("Qfr", 0x1D51), ("Qopf", 0x211A), ("Qscr", 0x1D4A)]

/-- The names that begin with `R`. -/
def upperR : List (String × Nat) :=
  [("RBarr", 0x2910), ("REG", 0xAE), ("Racute", 0x15), ("Rang", 0x27EB), ("Rarr", 0x21A0),
    ("Rarrtl", 0x2916), ("Rcaron", 0x15), ("Rcedil", 0x15), ("Rcy", 0x42), ("Re", 0x211C),
    ("ReverseElement", 0x220B), ("ReverseEquilibrium", 0x21CB), ("ReverseUpEquilibrium", 0x296F),
    ("Rfr", 0x211C), ("Rho", 0x3A), ("RightAngleBracket", 0x27E9), ("RightArrow", 0x2192),
    ("RightArrowBar", 0x21E5), ("RightArrowLeftArrow", 0x21C4), ("RightCeiling", 0x2309),
    ("RightDoubleBracket", 0x27E7), ("RightDownTeeVector", 0x295D), ("RightDownVector", 0x21C2),
    ("RightDownVectorBar", 0x2955), ("RightFloor", 0x230B), ("RightTee", 0x22A2),
    ("RightTeeArrow", 0x21A6), ("RightTeeVector", 0x295B), ("RightTriangle", 0x22B3),
    ("RightTriangleBar", 0x29D0), ("RightTriangleEqual", 0x22B5), ("RightUpDownVector", 0x294F),
    ("RightUpTeeVector", 0x295C), ("RightUpVector", 0x21BE), ("RightUpVectorBar", 0x2954),
    ("RightVector", 0x21C0), ("RightVectorBar", 0x2953), ("Rightarrow", 0x21D2), ("Ropf", 0x211D),
    ("RoundImplies", 0x2970), ("Rrightarrow", 0x21DB), ("Rscr", 0x211B), ("Rsh", 0x21B1),
    ("RuleDelayed", 0x29F4)]

/-- The names that begin with `S`. -/
def upperS : List (String × Nat) :=
  [("SHCHcy", 0x42), ("SHcy", 0x42), ("SOFTcy", 0x42), ("Sacute", 0x15), ("Sc", 0x2ABC),
    ("Scaron", 0x16), ("Scedil", 0x15), ("Scirc", 0x15), ("Scy", 0x42), ("Sfr", 0x1D51),
    ("ShortDownArrow", 0x2193), ("ShortLeftArrow", 0x2190), ("ShortRightArrow", 0x2192),
    ("ShortUpArrow", 0x2191), ("Sigma", 0x3A), ("SmallCircle", 0x2218), ("Sopf", 0x1D54),
    ("Sqrt", 0x221A), ("Square", 0x25A1), ("SquareIntersection", 0x2293), ("SquareSubset", 0x228F),
    ("SquareSubsetEqual", 0x2291), ("SquareSuperset", 0x2290), ("SquareSupersetEqual", 0x2292),
    ("SquareUnion", 0x2294), ("Sscr", 0x1D4A), ("Star", 0x22C6), ("Sub", 0x22D0),
    ("Subset", 0x22D0), ("SubsetEqual", 0x2286), ("Succeeds", 0x227B), ("SucceedsEqual", 0x2AB0),
    ("SucceedsSlantEqual", 0x227D), ("SucceedsTilde", 0x227F), ("SuchThat", 0x220B),
    ("Sum", 0x2211), ("Sup", 0x22D1), ("Superset", 0x2283), ("SupersetEqual", 0x2287),
    ("Supset", 0x22D1)]

/-- The names that begin with `T`. -/
def upperT : List (String × Nat) :=
  [("THORN", 0xDE), ("TRADE", 0x2122), ("TSHcy", 0x40), ("TScy", 0x42), ("Tab", 0x9),
    ("Tau", 0x3A), ("Tcaron", 0x16), ("Tcedil", 0x16), ("Tcy", 0x42), ("Tfr", 0x1D51),
    ("Therefore", 0x2234), ("Theta", 0x39), ("ThinSpace", 0x2009), ("Tilde", 0x223C),
    ("TildeEqual", 0x2243), ("TildeFullEqual", 0x2245), ("TildeTilde", 0x2248), ("Topf", 0x1D54),
    ("TripleDot", 0x20DB), ("Tscr", 0x1D4A), ("Tstrok", 0x16)]

/-- The names that begin with `U`. -/
def upperU : List (String × Nat) :=
  [("Uacute", 0xDA), ("Uarr", 0x219F), ("Uarrocir", 0x2949), ("Ubrcy", 0x40), ("Ubreve", 0x16),
    ("Ucirc", 0xDB), ("Ucy", 0x42), ("Udblac", 0x17), ("Ufr", 0x1D51), ("Ugrave", 0xD9),
    ("Umacr", 0x16), ("UnderBar", 0x33), ("UnderBrace", 0x23DF), ("UnderBracket", 0x23B5),
    ("UnderParenthesis", 0x23DD), ("Union", 0x22C3), ("UnionPlus", 0x228E), ("Uogon", 0x17),
    ("Uopf", 0x1D54), ("UpArrow", 0x2191), ("UpArrowBar", 0x2912), ("UpArrowDownArrow", 0x21C5),
    ("UpDownArrow", 0x2195), ("UpEquilibrium", 0x296E), ("UpTee", 0x22A5), ("UpTeeArrow", 0x21A5),
    ("Uparrow", 0x21D1), ("Updownarrow", 0x21D5), ("UpperLeftArrow", 0x2196),
    ("UpperRightArrow", 0x2197), ("Upsi", 0x3D), ("Upsilon", 0x3A), ("Uring", 0x16),
    ("Uscr", 0x1D4B), ("Utilde", 0x16), ("Uuml", 0xDC)]

/-- The names that begin with `V`. -/
def upperV : List (String × Nat) :=
  [("VDash", 0x22AB), ("Vbar", 0x2AEB), ("Vcy", 0x41), ("Vdash", 0x22A9), ("Vdashl", 0x2AE6),
    ("Vee", 0x22C1), ("Verbar", 0x2016), ("Vert", 0x2016), ("VerticalBar", 0x2223),
    ("VerticalLine", 0x7C), ("VerticalSeparator", 0x2758), ("VerticalTilde", 0x2240),
    ("VeryThinSpace", 0x200A), ("Vfr", 0x1D51), ("Vopf", 0x1D54), ("Vscr", 0x1D4B),
    ("Vvdash", 0x22AA)]

/-- The names that begin with `W`. -/
def upperW : List (String × Nat) :=
  [("Wcirc", 0x17), ("Wedge", 0x22C0), ("Wfr", 0x1D51), ("Wopf", 0x1D54), ("Wscr", 0x1D4B)]

/-- The names that begin with `X`. -/
def upperX : List (String × Nat) :=
  [("Xfr", 0x1D51), ("Xi", 0x39), ("Xopf", 0x1D54), ("Xscr", 0x1D4B)]

/-- The names that begin with `Y`. -/
def upperY : List (String × Nat) :=
  [("YAcy", 0x42), ("YIcy", 0x40), ("YUcy", 0x42), ("Yacute", 0xDD), ("Ycirc", 0x17),
    ("Ycy", 0x42), ("Yfr", 0x1D51), ("Yopf", 0x1D55), ("Yscr", 0x1D4B), ("Yuml", 0x17)]

/-- The names that begin with `Z`. -/
def upperZ : List (String × Nat) :=
  [("ZHcy", 0x41), ("Zacute", 0x17), ("Zcaron", 0x17), ("Zcy", 0x41), ("Zdot", 0x17),
    ("ZeroWidthSpace", 0x200B), ("Zeta", 0x39), ("Zfr", 0x2128), ("Zopf", 0x2124), ("Zscr", 0x1D4B)]

/-- The tables of this module by initial letter. -/
def upperTables : List (Char × List (String × Nat)) :=
  [('A', upperA), ('B', upperB), ('C', upperC), ('D', upperD), ('E', upperE), ('F', upperF),
    ('G', upperG), ('H', upperH), ('I', upperI), ('J', upperJ), ('K', upperK), ('L', upperL),
    ('M', upperM), ('N', upperN), ('O', upperO), ('P', upperP), ('Q', upperQ), ('R', upperR),
    ('S', upperS), ('T', upperT), ('U', upperU), ('V', upperV), ('W', upperW), ('X', upperX),
    ('Y', upperY), ('Z', upperZ)]

end Templating.Markup.Reference
