import FieldWalk.Algebra.Expr
/-!
The names that a formula text may use. A name outside the vocabulary is a variable, or a function
without value if it is called.
-/

namespace FieldWalk.Algebra

/-- A function by the name under which texts call it. -/
inductive Callable where
  /-- A function of one argument. -/
  | elementary (f : Func)
  /-- One over a function, of one argument. -/
  | reciprocal (f : Func)
  /-- A function of one over the argument. -/
  | ofReciprocal (f : Func)
  /-- A function of two arguments. -/
  | pair (f : Func)
  | cotangent
  | hyperbolicCotangent
  | log
  | sqrt
  | cubeRoot
  | root
  | power
  | sum
  | product
  | rational
  /-- The argument itself. -/
  | same
  /-- A function whose values cannot be computed with here. -/
  | other (name : String)
deriving DecidableEq, Repr

/-- What a name stands for. -/
inductive Word where
  | scalar (e : Expr)
  | callable (c : Callable)
  | truth (b : Bool)
  /-- Something that is neither a number nor a function. -/
  | thing
  /-- A name of the grammar that begins no operand. -/
  | reserved
  | unknown
deriving Inhabited

/-- Names of functions that are known, and whose values are not computed with. -/
def otherNames : List String :=
  ("Abs And Add Array Basic Chi Ci Derivative DiracDelta E1 Ei Eq Equality Equivalent Expr " ++
    "FallingFactorial Function Ge Gt Heaviside ITE Implies Integer Integral Interval Float " ++
    "KroneckerDelta LambertW Lambda Le Li Limit Lt Matrix Max Min Mul Nand Ne Nor Not Number O Or " ++
    "Order Piecewise Poly Pow Product Range Rational Rel RisingFactorial Set Shi Si Subs Sum " ++
    "Symbol Tuple Union Wild Xor Ynm Znm airyai airybi all any apart arity ascii ask assuming " ++
    "bell bernoulli besseli besselj besselk bessely beta betainc bin binomial callable cancel " ++
    "carmichael catalan centroid chebyshevt chebyshevu checksol chr collect compile compose " ++
    "composite content convolution cse decompose deg degree denom det diag diff dir discriminant " ++
    "div divisors divmod dsolve erf erfc erfi euler eval evalf evaluate exec expand expint " ++
    "exquo eye factor factorint ff fft fibonacci field flatten format fps frac fraction " ++
    "fresnelc fresnels fu gamma gcd gcdex gegenbauer genocchi getattr gff globals groebner " ++
    "group gruntz hankel1 hankel2 harmonic hasattr hash hermite hessian hex hn1 hn2 horner hyper " ++
    "id idiff ifft igcd ilcm imageset input integrate interpolate intersection intt invert " ++
    "isinstance isprime issubclass iter jacobi jn laguerre lcm legendre len li " ++
    "limit linsolve locals loggamma lucas max maximum meijerg min minimum mobius monic " ++
    "motzkin multigamma next nextprime nfloat npartitions nsimplify nsolve ntt numer oct ones " ++
    "open ord ordered partition pdiv periodicity plot poly polygamma polylog pow powdenest " ++
    "powsimp pprint prem preview prevprime prime primefactors primenu primeomega primepi " ++
    "primerange primitive primorial print prod product public quo rad radsimp " ++
    "randprime ratsimp rcollect refine rem repr residue resultant rf ring roots rootof round " ++
    "rsolve satisfiable separatevars series setattr shape sieve sift signsimp simplify sinc solve " ++
    "solveset sorted sqf sqrtdenest stieltjes sturm subfactorial subsets subresultants sum " ++
    "summation symbols symarray symmetrize take test textplot threaded timed together totient " ++
    "trace transpose tribonacci trigamma trigsimp trunc uppergamma use var variations vars " ++
    "vectorize viete wronskian xring yn zeros zeta").splitOn " "

/-- Names with an underscore among those functions. -/
def otherJoinedNames : List String :=
  ("all_roots apart_list appellf1 apply_finite_diff are_similar assemble_partfrac_list " ++
    "assoc_laguerre assoc_legendre betainc_regularized binomial_coefficients block_collapse " ++
    "bool_map bottom_up bspline_basis bspline_basis_set chebyshevt_poly chebyshevt_root " ++
    "chebyshevu_poly chebyshevu_root check_assumptions classify_ode classify_pde closest_points " ++
    "collect_const construct_domain continued_fraction convex_hull cosine_transform count_ops " ++
    "count_roots covering_product cycle_length cyclotomic_poly default_sort_key degree_list " ++
    "derive_by_array det_quick dict_merge difference_delta differentiate_finite dirichlet_eta " ++
    "discrete_log divisor_count divisor_sigma egyptian_fraction elliptic_e elliptic_f elliptic_k " ++
    "elliptic_pi euler_equations exp_polar expand_complex expand_func expand_log expand_mul " ++
    "expand_multinomial expand_power_base expand_power_exp expand_trig factor_list factor_nc " ++
    "factor_terms farthest_points finite_diff_weights fourier_series fourier_transform " ++
    "gcd_list gcd_terms gff_list ground_roots hadamard_product half_gcdex hankel_transform " ++
    "has_dups hermite_poly hermite_prob homogeneous_order init_printing integer_log " ++
    "integer_nthroot interpolating_poly is_abundant is_convex is_decreasing is_increasing " ++
    "is_monotonic is_perfect is_primitive_root is_quad_residue jacobi_normalized jacobi_poly " ++
    "jacobi_symbol jn_zeros jordan_cell kronecker_product kronecker_symbol " ++
    "laguerre_poly laplace_transform lcm_list legendre_poly legendre_symbol limit_seq " ++
    "line_integrate linear_eq_to_matrix matrix_symbols mellin_transform mod_inverse " ++
    "multinomial_coefficients n_order nth_power_roots_poly nthroot_mod num_digits ode_order " ++
    "parse_expr pde_separate perfect_power periodic_argument piecewise_fold plot_implicit " ++
    "plot_parametric polar_lift pollard_rho pretty_print primitive_root principal_branch " ++
    "quadratic_residues random_poly real_root real_roots reduce_inequalities reduced_totient " ++
    "refine_root riemann_xi rot_axis1 rot_axis2 rot_axis3 rsolve_poly simplify_logic " ++
    "sine_transform solve_linear solve_poly_system sqf_list sqf_norm sqf_part sqrt_mod " ++
    "stationary_points swinnerton_dyer_poly symmetric_poly terms_gcd to_cnf to_dnf to_nnf " ++
    "topological_sort total_degree").splitOn " "

/-- Words of the grammar. -/
def reservedNames : List String :=
  ["and", "or", "not", "if", "else", "in", "is", "for", "lambda", "await", "async", "yield", "from",
    "import", "class", "def", "del", "assert", "break", "continue", "elif", "except", "finally",
    "global", "nonlocal", "pass", "raise", "return", "try", "while", "with", "as"]

/-- Functions with values, by name. -/
def functionNames : List (String × Callable) :=
  [("sin", .elementary .sin), ("cos", .elementary .cos), ("tan", .elementary .tan),
    ("sinh", .elementary .sinh), ("cosh", .elementary .cosh), ("tanh", .elementary .tanh),
    ("asin", .elementary .asin), ("acos", .elementary .acos), ("atan", .elementary .atan),
    ("asinh", .elementary .asinh), ("acosh", .elementary .acosh), ("atanh", .elementary .atanh),
    ("exp", .elementary .exp), ("abs", .elementary .abs), ("Abs", .elementary .abs),
    ("sign", .elementary .sign), ("re", .elementary .re), ("im", .elementary .im),
    ("arg", .elementary .arg), ("conjugate", .elementary .conj), ("adjoint", .elementary .conj),
    ("floor", .elementary .floor), ("ceiling", .elementary .ceiling),
    ("factorial", .elementary .factorial), ("factorial2", .elementary .doubleFactorial),
    ("gamma", .elementary .gamma), ("digamma", .elementary .digamma),
    ("sec", .reciprocal .cos), ("csc", .reciprocal .sin), ("sech", .reciprocal .cosh),
    ("csch", .reciprocal .sinh), ("cot", .cotangent), ("coth", .hyperbolicCotangent),
    ("acot", .ofReciprocal .atan), ("asec", .ofReciprocal .acos), ("acsc", .ofReciprocal .asin),
    ("acoth", .ofReciprocal .atanh), ("asech", .ofReciprocal .acosh),
    ("acsch", .ofReciprocal .asinh), ("atan2", .pair .atan2), ("Mod", .pair .mod),
    ("log", .log), ("ln", .log), ("sqrt", .sqrt), ("cbrt", .cubeRoot), ("root", .root),
    ("Pow", .power), ("pow", .power), ("Add", .sum), ("Mul", .product), ("Rational", .rational),
    ("Integer", .same), ("N", .same), ("S", .same), ("sympify", .same), ("Float", .same)]

/-- Constants by name. -/
def constantNames : List (String × Expr) :=
  [("x", .var .x), ("y", .var .y), ("e", .euler), ("E", .euler), ("pi", .pi),
    ("I", .imaginaryUnit), ("oo", .infinity), ("zoo", .pole), ("nan", .undefined),
    ("GoldenRatio", .const .golden), ("EulerGamma", .const .gammaConstant),
    ("Catalan", .const .catalan)]

/-- What a name stands for. -/
def Word.ofName (name : String) : Word :=
  match constantNames.lookup name with
  | some e => .scalar e
  | none => match functionNames.lookup name with
    | some c => .callable c
    | none =>
      if name == "true" || name == "True" then .truth true
      else if name == "false" || name == "False" then .truth false
      else if ["None", "Q", "ZZ", "QQ", "RR", "CC", "FF", "EX", "Reals", "Integers", "Naturals",
        "Rationals", "Complexes", "EmptySet"].contains name then .thing
      else if reservedNames.contains name then .reserved
      else if otherNames.contains name || otherJoinedNames.contains name then
        .callable (.other name)
      else .unknown

end FieldWalk.Algebra
