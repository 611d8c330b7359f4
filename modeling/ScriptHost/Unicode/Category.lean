import ScriptHost.Unicode.CharSet

/-!
# General categories

The general category of every character, as a table of runs: the two letters of the category and how many characters
follow the first of the run, in digits of base 36.
-/

namespace ScriptHost.Unicode

/-- The runs of characters of one category. -/
private def categoryTable : String :=
  String.join [
  "Ccv Zs Po2 Sc Po2 Ps Pe Po Sm Po Pd Po1 Nd9 Po1 Sm2 Po1 Lup Ps Po Pe Sk Pc Sk Llp Ps Sm Pe Sm Ccw Zs Po Sc3 So ",
  "Po Sk So Lo Pi Sm Cf So Sk So Sm No1 Sk Ll Po1 Sk No Lo Pf No2 Po Lum Sm Lu6 Lln Sm Ll7 Lu Ll Lu Ll Lu Ll Lu ",
  "Ll Lu Ll Lu Ll Lu Ll Lu Ll Lu Ll Lu Ll Lu Ll Lu Ll Lu Ll Lu Ll Lu Ll Lu Ll Lu Ll Lu Ll Lu Ll Lu Ll Lu Ll Lu Ll ",
  "Lu Ll Lu Ll Lu Ll Lu Ll Lu Ll Lu Ll1 Lu Ll Lu Ll Lu Ll Lu Ll Lu Ll Lu Ll Lu Ll Lu Ll1 Lu Ll Lu Ll Lu Ll Lu Ll ",
  "Lu Ll Lu Ll Lu Ll Lu Ll Lu Ll Lu Ll Lu Ll Lu Ll Lu Ll Lu Ll Lu Ll Lu Ll Lu Ll Lu Ll Lu Ll Lu Ll Lu Ll Lu Ll Lu ",
  "Ll Lu1 Ll Lu Ll Lu Ll2 Lu1 Ll Lu Ll Lu1 Ll Lu2 Ll1 Lu3 Ll Lu1 Ll Lu2 Ll2 Lu1 Ll Lu1 Ll Lu Ll Lu Ll Lu1 Ll Lu ",
  "Ll1 Lu Ll Lu1 Ll Lu2 Ll Lu Ll Lu1 Ll1 Lo Lu Ll2 Lo3 Lu Lt Ll Lu Lt Ll Lu Lt Ll Lu Ll Lu Ll Lu Ll Lu Ll Lu Ll ",
  "Lu Ll Lu Ll Lu Ll1 Lu Ll Lu Ll Lu Ll Lu Ll Lu Ll Lu Ll Lu Ll Lu Ll Lu Ll1 Lu Lt Ll Lu Ll Lu2 Ll Lu Ll Lu Ll Lu ",
  "Ll Lu Ll Lu Ll Lu Ll Lu Ll Lu Ll Lu Ll Lu Ll Lu Ll Lu Ll Lu Ll Lu Ll Lu Ll Lu Ll Lu Ll Lu Ll Lu Ll Lu Ll Lu Ll ",
  "Lu Ll Lu Ll Lu Ll Lu Ll Lu Ll Lu Ll Lu Ll Lu Ll6 Lu1 Ll Lu1 Ll1 Lu Ll Lu3 Ll Lu Ll Lu Ll Lu Ll Lu Ll1w Lo1 Llp ",
  "Lmh Sk3 Lmb Skd Lm4 Sk6 Lm Sk Lm Skg Mn33 Lu Ll Lu Ll Lm Sk Lu Ll Cn1 Lm Ll2 Po Lu Cn3 Sk1 Lu Po Lu2 Cn Lu Cn ",
  "Lu1 Ll Lug Cn Lu8 Lly Lu Ll1 Lu2 Ll2 Lu Ll Lu Ll Lu Ll Lu Ll Lu Ll Lu Ll Lu Ll Lu Ll Lu Ll Lu Ll Lu Ll Lu Ll4 ",
  "Lu Ll Sm Lu Ll Lu1 Ll1 Lu1e Ll1b Lu Ll Lu Ll Lu Ll Lu Ll Lu Ll Lu Ll Lu Ll Lu Ll Lu Ll Lu Ll Lu Ll Lu Ll Lu Ll ",
  "Lu Ll Lu Ll Lu Ll Lu Ll So Mn4 Me1 Lu Ll Lu Ll Lu Ll Lu Ll Lu Ll Lu Ll Lu Ll Lu Ll Lu Ll Lu Ll Lu Ll Lu Ll Lu ",
  "Ll Lu Ll Lu Ll Lu Ll Lu Ll Lu Ll Lu Ll Lu Ll Lu Ll Lu Ll Lu Ll Lu Ll Lu Ll Lu Ll Lu Ll Lu1 Ll Lu Ll Lu Ll Lu ",
  "Ll Lu Ll Lu Ll Lu Ll1 Lu Ll Lu Ll Lu Ll Lu Ll Lu Ll Lu Ll Lu Ll Lu Ll Lu Ll Lu Ll Lu Ll Lu Ll Lu Ll Lu Ll Lu ",
  "Ll Lu Ll Lu Ll Lu Ll Lu Ll Lu Ll Lu Ll Lu Ll Lu Ll Lu Ll Lu Ll Lu Ll Lu Ll Lu Ll Lu Ll Lu Ll Lu Ll Lu Ll Lu Ll ",
  "Lu Ll Lu Ll Lu Ll Lu Ll Lu Ll Lu Ll Lu Ll Lu Ll Lu Ll Lu Ll Lu Ll Lu Ll Lu Ll Lu Ll Lu Ll Cn Lu11 Cn1 Lm Po5 ",
  "Ll14 Po Pd Cn1 So1 Sc Cn Mn18 Pd Mn Po Mn1 Po Mn1 Po Mn Cn7 Loq Cn3 Lo3 Po1 Cna Cf5 Sm2 Po1 Sc Po1 So1 Mna Po ",
  "Cf Po2 Lov Lm Lo9 Mnk Nd9 Po3 Lo1 Mn Lo2q Po Lo Mn6 Cf So Mn5 Lm1 Mn1 So Mn3 Lo1 Nd9 Lo2 So1 Lo Pod Cn Cf Lo ",
  "Mn Lot Mnq Cn1 Lo2g Mna Lo Cnd Nd9 Low Mn8 Lm1 So Po2 Lm Cn1 Mn Sc1 Lol Mn3 Lm Mn8 Lm Mn2 Lm Mn4 Cn1 Poe Cn ",
  "Loo Mn2 Cn1 Po Cn Loa Cn4 Lon Sk Lo6 Cf1 Cn4 Mn8 Lo14 Lm Mnn Cf Mnv Mc Lo1h Mn Mc Mn Lo Mc2 Mn7 Mc3 Mn Mc1 Lo ",
  "Mn6 Lo9 Mn1 Po1 Nd9 Po Lm Loe Mn Mc1 Cn Lo7 Cn1 Lo1 Cn1 Lol Cn Lo6 Cn Lo Cn2 Lo3 Cn1 Mn Lo Mc2 Mn3 Cn1 Mc1 Cn1 ",
  "Mc1 Mn Lo Cn7 Mc Cn3 Lo1 Cn Lo2 Mn1 Cn1 Nd9 Lo1 Sc1 No5 So Sc Lo Po Mn Cn1 Mn1 Mc Cn Lo5 Cn3 Lo1 Cn1 Lol Cn ",
  "Lo6 Cn Lo1 Cn Lo1 Cn Lo1 Cn1 Mn Cn Mc2 Mn1 Cn3 Mn1 Cn1 Mn2 Cn2 Mn Cn6 Lo3 Cn Lo Cn6 Nd9 Mn1 Lo2 Mn Po Cn9 Mn1 ",
  "Mc Cn Lo8 Cn Lo2 Cn Lol Cn Lo6 Cn Lo1 Cn Lo4 Cn1 Mn Lo Mc2 Mn4 Cn Mn1 Mc Cn Mc1 Mn Cn1 Lo Cne Lo1 Mn1 Cn1 Nd9 ",
  "Po Sc Cn6 Lo Mn5 Cn Mn Mc1 Cn Lo7 Cn1 Lo1 Cn1 Lol Cn Lo6 Cn Lo1 Cn Lo4 Cn1 Mn Lo Mc Mn Mc Mn3 Cn1 Mc1 Cn1 Mc1 ",
  "Mn Cn6 Mn1 Mc Cn3 Lo1 Cn Lo2 Mn1 Cn1 Nd9 So Lo No5 Cn9 Mn Lo Cn Lo5 Cn2 Lo2 Cn Lo3 Cn2 Lo1 Cn Lo Cn Lo1 Cn2 ",
  "Lo1 Cn2 Lo2 Cn2 Lob Cn3 Mc1 Mn Mc1 Cn2 Mc2 Cn Mc2 Mn Cn1 Lo Cn5 Mc Cnd Nd9 No2 So5 Sc So Cn4 Mn Mc2 Mn Lo7 Cn ",
  "Lo2 Cn Lom Cn Lof Cn1 Mn Lo Mn2 Mc3 Cn Mn2 Cn Mn3 Cn6 Mn1 Cn Lo2 Cn Lo1 Cn1 Lo1 Mn1 Cn1 Nd9 Cn6 Po No6 So Lo ",
  "Mn Mc1 Po Lo7 Cn Lo2 Cn Lom Cn Lo9 Cn Lo4 Cn1 Mn Lo Mc Mn Mc4 Cn Mn Mc1 Cn Mc1 Mn1 Cn6 Mc1 Cn4 Lo2 Cn Lo1 Mn1 ",
  "Cn1 Nd9 Cn Lo1 Mc Cnb Mn1 Mc1 Lo8 Cn Lo2 Cn Lo14 Mn1 Lo Mc2 Mn3 Cn Mc2 Cn Mc2 Mn Lo So Cn3 Lo2 Mc No6 Lo2 Mn1 ",
  "Cn1 Nd9 No8 So Lo5 Cn Mn Mc1 Cn Loh Cn2 Lon Cn Lo8 Cn Lo Cn1 Lo6 Cn2 Mn Cn3 Mc2 Mn2 Cn Mn Cn Mc7 Cn5 Nd9 Cn1 ",
  "Mc1 Po Cnb Lo1b Mn Lo1 Mn6 Cn3 Sc Lo5 Lm Mn7 Po Nd9 Po1 Cn10 Lo1 Cn Lo Cn Lo4 Cn Lon Cn Lo Cn Lo9 Mn Lo1 Mn8 ",
  "Lo Cn1 Lo4 Cn Lm Cn Mn6 Cn Nd9 Cn1 Lo3 Cnv Lo So2 Poe So Po So2 Mn1 So5 Nd9 No9 So Mn So Mn So Mn Ps Pe Ps Pe ",
  "Mc1 Lo7 Cn Loz Cn3 Mnd Mc Mn4 Po Mn1 Lo4 Mna Cn Mnz Cn So7 Mn So5 Cn So1 Po4 So3 Po1 Cn10 Lo16 Mc1 Mn3 Mc Mn5 ",
  "Mc Mn1 Mc1 Mn1 Lo Nd9 Po5 Lo5 Mc1 Mn1 Lo3 Mn2 Lo Mc2 Lo1 Mc6 Lo2 Mn3 Loc Mn Mc1 Mn1 Mc5 Mn Lo Mc Nd9 Mc2 Mn ",
  "So1 Lu11 Cn Lu Cn4 Lu Cn1 Ll16 Po Lm Ll2 Lo94 Cn Lo3 Cn1 Lo6 Cn Lo Cn Lo3 Cn1 Lo14 Cn Lo3 Cn1 Low Cn Lo3 Cn1 ",
  "Lo6 Cn Lo Cn Lo3 Cn1 Loe Cn Lo1k Cn Lo3 Cn1 Lo1u Cn1 Mn2 Po8 Noj Cn2 Lof So9 Cn5 Lu2d Cn1 Ll5 Cn1 Pd Loh7 So ",
  "Po Log Zs Lop Ps Pe Cn2 Lo22 Po2 Nl2 Lo7 Cn6 Loh Mn2 Mc Cn8 Loi Mn1 Mc Po1 Cn8 Loh Mn1 Cnb Loc Cn Lo2 Cn Mn1 ",
  "Cnb Lo1f Mn1 Mc Mn6 Mc7 Mn Mc1 Mna Po2 Lm Po2 Sc Lo Mn Cn1 Nd9 Cn5 No9 Cn5 Po5 Pd Po3 Mn2 Cf Mn Nd9 Cn5 Loy Lm ",
  "Lo1g Cn6 Lo4 Mn1 Lox Mn Lo Cn4 Lo1x Cn9 Lou Cn Mn2 Mc3 Mn1 Mc2 Cn3 Mc1 Mn Mc5 Mn2 Cn3 So Cn2 Po1 Nd9 Lot Cn1 ",
  "Lo4 Cna Lo17 Cn3 Lop Cn5 Nd9 No Cn2 Sox Lom Mn1 Mc1 Mn Cn1 Po1 Lo1g Mc Mn Mc Mn6 Cn Mn Mc Mn Mc1 Mn7 Mc5 Mn9 ",
  "Cn1 Mn Nd9 Cn5 Nd9 Cn5 Po6 Lm Po5 Cn1 Mnd Me Mnu Cn1 Mnb Cnj Mn3 Mc Lo1a Mn Mc Mn4 Mc Mn Mc4 Mn Mc1 Lo7 Cn Po1 ",
  "Nd9 Po6 So9 Mn8 So8 Po2 Mn1 Mc Lot Mc Mn3 Mc1 Mn1 Mc Mn2 Lo1 Nd9 Lo17 Mn Mc Mn1 Mc2 Mn Mc Mn2 Mc1 Cn7 Po3 Loz ",
  "Mc7 Mn7 Mc1 Mn1 Cn2 Po4 Nd9 Cn2 Lo2 Nd9 Lot Lm5 Po1 Ll8 Lu Ll Cn4 Lu16 Cn1 Lu2 Po7 Cn7 Mn2 Po Mnc Mc Mn6 Lo3 ",
  "Mn Lo5 Mn Lo1 Mc Mn1 Lo Cn4 Ll17 Lm1q Llc Lm Llx Lm10 Mn1r Lu Ll Lu Ll Lu Ll Lu Ll Lu Ll Lu Ll Lu Ll Lu Ll Lu ",
  "Ll Lu Ll Lu Ll Lu Ll Lu Ll Lu Ll Lu Ll Lu Ll Lu Ll Lu Ll Lu Ll Lu Ll Lu Ll Lu Ll Lu Ll Lu Ll Lu Ll Lu Ll Lu Ll ",
  "Lu Ll Lu Ll Lu Ll Lu Ll Lu Ll Lu Ll Lu Ll Lu Ll Lu Ll Lu Ll Lu Ll Lu Ll Lu Ll Lu Ll Lu Ll Lu Ll Lu Ll Lu Ll Lu ",
  "Ll Lu Ll Lu Ll Lu Ll Lu Ll Lu Ll Lu Ll Lu Ll Lu Ll Lu Ll Lu Ll Lu Ll Lu Ll Lu Ll Lu Ll Lu Ll Lu Ll Lu Ll Lu Ll ",
  "Lu Ll Lu Ll Lu Ll Lu Ll Lu Ll Lu Ll Lu Ll Lu Ll Lu Ll Lu Ll Lu Ll8 Lu Ll Lu Ll Lu Ll Lu Ll Lu Ll Lu Ll Lu Ll ",
  "Lu Ll Lu Ll Lu Ll Lu Ll Lu Ll Lu Ll Lu Ll Lu Ll Lu Ll Lu Ll Lu Ll Lu Ll Lu Ll Lu Ll Lu Ll Lu Ll Lu Ll Lu Ll Lu ",
  "Ll Lu Ll Lu Ll Lu Ll Lu Ll Lu Ll Lu Ll Lu Ll Lu Ll Lu Ll Lu Ll Lu Ll Lu Ll Lu Ll Lu Ll Lu Ll Lu Ll Lu Ll Lu Ll ",
  "Lu Ll Lu Ll Lu Ll Lu Ll Lu Ll8 Lu7 Ll5 Cn1 Lu5 Cn1 Ll7 Lu7 Ll7 Lu7 Ll5 Cn1 Lu5 Cn1 Ll7 Cn Lu Cn Lu Cn Lu Cn Lu ",
  "Ll7 Lu7 Lld Cn1 Ll7 Lt7 Ll7 Lt7 Ll7 Lt7 Ll4 Cn Ll1 Lu3 Lt Sk Ll Sk2 Ll2 Cn Ll1 Lu3 Lt Sk2 Ll3 Cn1 Ll1 Lu3 Cn ",
  "Sk2 Ll7 Lu4 Sk2 Cn1 Ll2 Cn Ll1 Lu3 Lt Sk1 Cn Zsa Cf4 Pd5 Po1 Pi Pf Ps Pi1 Pf Ps Pi Po7 Zl Zp Cf4 Zs Po8 Pi Pf ",
  "Po3 Pc1 Po2 Sm Ps Pe Poa Sm Po Pc Po9 Zs Cf4 Cn Cf9 No Lm Cn1 No5 Sm2 Ps Pe Lm No9 Sm2 Ps Pe Cn Lmc Cn2 Scx ",
  "Cnd Mnc Me3 Mn Me2 Mnb Cne So1 Lu So3 Lu So1 Ll Lu2 Ll1 Lu2 Ll So Lu So1 Sm Lu4 So5 Lu So Lu So Lu So Lu3 So ",
  "Ll Lu3 Ll Lo3 Ll So1 Ll1 Lu1 Sm4 Lu Ll3 So Sm So1 Ll So Nof Nly Lu Ll Nl3 No So1 Cn3 Sm4 So4 Sm1 So3 Sm So1 Sm ",
  "So1 Sm So6 Sm Sou Sm1 So1 Sm So Sm Sou Sm7f So7 Ps Pe Ps Pe Soj Sm1 So6 Ps Pe So28 Sm Sot Smo So13 Sm5 So1z ",
  "Cnl Soa Cnk No1n So25 Nol So52 Sm So8 Sm So1h Sm7 So32 Sm So6v Ps Pe Ps Pe Ps Pe Ps Pe Ps Pe Ps Pe Ps Pe Not ",
  "So17 Sm4 Ps Pe Smu Ps Pe Ps Pe Ps Pe Ps Pe Ps Pe Smf So73 Sm3m Ps Pe Ps Pe Ps Pe Ps Pe Ps Pe Ps Pe Ps Pe Ps Pe ",
  "Ps Pe Ps Pe Ps Pe Sm1q Ps Pe Ps Pe Smv Ps Pe Sm75 So1b Smk So1 Sm5 So12 Cn1 So3t Lu1b Ll1b Lu Ll Lu2 Ll1 Lu Ll ",
  "Lu Ll Lu Ll Lu3 Ll Lu Ll1 Lu Ll5 Lm1 Lu2 Ll Lu Ll Lu Ll Lu Ll Lu Ll Lu Ll Lu Ll Lu Ll Lu Ll Lu Ll Lu Ll Lu Ll ",
  "Lu Ll Lu Ll Lu Ll Lu Ll Lu Ll Lu Ll Lu Ll Lu Ll Lu Ll Lu Ll Lu Ll Lu Ll Lu Ll Lu Ll Lu Ll Lu Ll Lu Ll Lu Ll Lu ",
  "Ll Lu Ll Lu Ll Lu Ll Lu Ll Lu Ll Lu Ll Lu Ll Lu Ll Lu Ll Lu Ll Lu Ll Lu Ll Lu Ll Lu Ll Lu Ll Lu Ll Lu Ll Lu Ll ",
  "Lu Ll1 So5 Lu Ll Lu Ll Mn2 Lu Ll Cn4 Po3 No Po1 Ll11 Cn Ll Cn4 Ll Cn1 Lo1j Cn6 Lm Po Cnd Mn Lom Cn8 Lo6 Cn Lo6 ",
  "Cn Lo6 Cn Lo6 Cn Lo6 Cn Lo6 Cn Lo6 Cn Lo6 Cn Mnv Po1 Pi Pf Pi Pf Po2 Pi Pf Po Pi Pf Po8 Pd Po1 Pd Po Pi Pf Po1 ",
  "Pi Pf Ps Pe Ps Pe Ps Pe Ps Pe Po4 Lm Po9 Pd1 Po3 Pd Po Ps Poc So1 Po2 Ps Pe Ps Pe Ps Pe Ps Pe Pd Cnx Sop Cn ",
  "So2g Cnb So5x Cnp Sof Zs Po2 So Lm Lo Nl Ps Pe Ps Pe Ps Pe Ps Pe Ps Pe So1 Ps Pe Ps Pe Ps Pe Ps Pe Pd Ps Pe1 ",
  "So Nl8 Mn3 Mc1 Pd Lm4 So1 Nl2 Lm Lo Po So1 Cn Lo2d Cn1 Mn1 Sk1 Lm1 Lo Pd Lo2h Po Lm2 Lo Cn4 Lo16 Cn Lo2l Cn ",
  "So1 No3 So9 Lov So11 Cn8 So Lof Sou Cn No9 Sot No7 So Noe Sov No9 So12 Noe So8v Lo533 So1r Log7o Lm Lovq Cn2 ",
  "So1i Cn8 Lo13 Lm5 Po1 Lo7f Lm Po2 Lof Nd9 Lo1 Cnj Lu Ll Lu Ll Lu Ll Lu Ll Lu Ll Lu Ll Lu Ll Lu Ll Lu Ll Lu Ll ",
  "Lu Ll Lu Ll Lu Ll Lu Ll Lu Ll Lu Ll Lu Ll Lu Ll Lu Ll Lu Ll Lu Ll Lu Ll Lu Ll Lo Mn Me2 Po Mn9 Po Lm Lu Ll Lu ",
  "Ll Lu Ll Lu Ll Lu Ll Lu Ll Lu Ll Lu Ll Lu Ll Lu Ll Lu Ll Lu Ll Lu Ll Lu Ll Lm1 Mn1 Lo1x Nl9 Mn1 Po5 Cn7 Skm ",
  "Lm8 Sk1 Lu Ll Lu Ll Lu Ll Lu Ll Lu Ll Lu Ll Lu Ll2 Lu Ll Lu Ll Lu Ll Lu Ll Lu Ll Lu Ll Lu Ll Lu Ll Lu Ll Lu Ll ",
  "Lu Ll Lu Ll Lu Ll Lu Ll Lu Ll Lu Ll Lu Ll Lu Ll Lu Ll Lu Ll Lu Ll Lu Ll Lu Ll Lu Ll Lu Ll Lu Ll Lu Ll Lu Ll Lu ",
  "Ll Lu Ll Lu Ll Lm Ll7 Lu Ll Lu Ll Lu1 Ll Lu Ll Lu Ll Lu Ll Lu Ll Lm Sk1 Lu Ll Lu Ll Lo Lu Ll Lu Ll2 Lu Ll Lu ",
  "Ll Lu Ll Lu Ll Lu Ll Lu Ll Lu Ll Lu Ll Lu Ll Lu Ll Lu4 Ll Lu4 Ll Lu Ll Lu Ll Lu Ll Lu Ll Lu Ll Lu Ll Lu Ll Lu3 ",
  "Ll Lu Ll Lu1 Ll Lu Ll Lu Ll Lu Ll Lu Ll Lu Ll Lu Ll Lu Ll Lu Cnj Lm3 Lu Ll Lo Lm1 Ll Lo6 Mn Lo2 Mn Lo3 Mn Lom ",
  "Mc1 Mn1 Mc So3 Mn Cn2 No5 So1 Sc So Cn5 Lo1f Po3 Cn7 Mc1 Lo1d Mcf Mn1 Cn7 Po1 Nd9 Cn5 Mnh Lo5 Po2 Lo Po Lo1 Mn ",
  "Nd9 Lor Mn7 Po1 Lom Mna Mc1 Cna Po Los Cn2 Mn2 Mc Lo1a Mn Mc1 Mn3 Mc1 Mn1 Mc2 Poc Cn Lm Nd9 Cn3 Po1 Lo4 Mn Lm ",
  "Lo8 Nd9 Lo4 Cn Lo14 Mn5 Mc1 Mn1 Mc1 Mn1 Cn8 Lo2 Mn Lo7 Mn Mc Cn1 Nd9 Cn1 Po3 Lof Lm Lo5 So2 Lo Mc Mn Mc Lo1d ",
  "Mn Lo Mn2 Lo1 Mn1 Lo4 Mn1 Lo Mn Lo Cnn Lo1 Lm Po1 Loa Mc Mn1 Mc1 Po1 Lo Lm1 Mc Mn Cn9 Lo5 Cn1 Lo5 Cn1 Lo5 Cn8 ",
  "Lo6 Cn Lo6 Cn Ll16 Sk Lm3 Ll8 Lm Sk1 Cn3 Ll27 Loy Mc1 Mn Mc1 Mn Mc1 Po Mc Mn Cn1 Nd9 Cn5 Lo8mb Cnb Lom Cn3 ",
  "Lo1c Cn3 Cs1kv Co4xr Loa5 Cn1 Lo2x Cn11 Ll6 Cnb Ll4 Cn4 Lo Mn Lo9 Sm Loc Cn Lo4 Cn Lo Cn Lo1 Cn Lo1 Cn Lo2z ",
  "Skg Sof Loa2 Pe Ps Sof Lo1r So1 Lo1h So7 Cnv Lob Sc So2 Mnf Po6 Ps Pe Po Cn5 Mnf Po Pd1 Pc1 Ps Pe Ps Pe Ps Pe ",
  "Ps Pe Ps Pe Ps Pe Ps Pe Ps Pe Po1 Ps Pe Po3 Pc2 Po2 Cn Po3 Pd Ps Pe Ps Pe Ps Pe Po2 Sm Pd Sm2 Cn Po Sc Po1 Cn3 ",
  "Lo4 Cn Lo3q Cn1 Cf Cn Po2 Sc Po2 Ps Pe Po Sm Po Pd Po1 Nd9 Po1 Sm2 Po1 Lup Ps Po Pe Sk Pc Sk Llp Ps Sm Pe Sm ",
  "Ps Pe Po Ps Pe Po1 Lo9 Lm Lo18 Lm1 Lou Cn2 Lo5 Cn1 Lo5 Cn1 Lo5 Cn1 Lo2 Cn2 Sc1 Sm Sk So Sc1 Cn So Sm3 So1 Cn9 ",
  "Cf2 So1 Cn1 Lob Cn Lop Cn Loi Cn Lo1 Cn Loe Cn1 Lod Cnx Lo3e Cn4 Po2 Cn3 No18 Cn2 So8 Nl1g No3 Sog No1 So2 Cn ",
  "Soc Cn2 So Cn1a So18 Mn Cn3l Los Cn2 Lo1c Cne Mn Noq Cn3 Lov No3 Cn8 Loj Nl Lo7 Nl Cn4 Lo11 Mn4 Cn4 Lot Cn Po ",
  "Loz Cn3 Lo7 Po Nl4 Cn15 Lu13 Ll13 Lo25 Cn1 Nd9 Cn5 Luz Cn3 Llz Cn3 Lo13 Cn7 Lo1f Cna Po Lua Cn Lue Cn Lu6 Cn ",
  "Lu1 Cn Lla Cn Lle Cn Ll6 Cn Ll1 Cn2 Lo1f Cnb Lo8m Cn8 Lol Cn9 Lo7 Cnn Lm5 Cn Lm15 Cn Lm8 Cn1w Lo5 Cn1 Lo Cn ",
  "Lo17 Cn Lo1 Cn2 Lo Cn1 Lom Cn Po No7 Lom So1 No6 Lou Cn7 No8 Cn1b Loi Cn Lo1 Cn4 No4 Lol No5 Cn2 Po Lop Cn4 Po ",
  "Lop Cn11 Lo1j Cn3 No1 Lo1 Nof Cn1 No19 Lo Mn2 Cn Mn1 Cn4 Mn3 Lo3 Cn Lo2 Cn Los Cn1 Mn2 Cn3 Mn No8 Cn6 Po8 Cn6 ",
  "Los No1 Po Los No2 Cnv Lo7 So Lor Mn1 Cn3 No4 Po6 Cn8 Lo1h Cn2 Po6 Lol Cn1 No7 Loi Cn4 No7 Loh Cn6 Po3 Cnb No6 ",
  "Cn27 Lo20 Cn1i Lu1e Cnc Ll1e Cn6 No5 Loz Mn3 Cn7 Nd9 Cn5 Nd9 Lo3 Lm Lo Lul Cn2 Mn4 Pd Lm Lll Cn7 Sm1 Cn5r Nou ",
  "Cn Lo15 Cn Mn1 Pd Cn1 Lo1 Cnf Lo2 Lm Lo1 Cn7 Po So7 Cnw Mn5 Los No9 Lo Cn7 Lol Mna No3 Po4 Cnl Loh Mn3 Po3 ",
  "Cn11 Lok No6 Cnj Lom Cn8 Mc Mn Mc Lo1g Mne Po6 Cn3 Noj Nd9 Mn Lo1 Mn1 Lo Cn8 Mn2 Mc Lo18 Mc2 Mn3 Mc1 Mn1 Po1 ",
  "Cf Po3 Mn Cn9 Cf Cn1 Loo Cn6 Nd9 Cn5 Mn2 Loz Mn4 Mc Mn7 Cn Nd9 Po3 Lo Mc1 Lo Cn7 Loy Mn Po1 Lo Cn8 Mn1 Mc Lo1b ",
  "Mc2 Mn8 Mc1 Lo3 Po3 Mn3 Po Mc Mn Nd9 Lo Po Lo Po2 Cn Noj Cna Loh Cn Loo Mc2 Mn2 Mc1 Mn Mc Mn1 Po5 Mn Lo1 Mn ",
  "Cn1p Lo6 Cn Lo Cn Lo3 Cn Loe Cn Lo9 Po Cn5 Lo1a Mn Mc2 Mn7 Cn4 Nd9 Cn5 Mn1 Mc1 Cn Lo7 Cn1 Lo1 Cn1 Lol Cn Lo6 ",
  "Cn Lo1 Cn Lo4 Cn Mn1 Lo Mc1 Mn Mc3 Cn1 Mc1 Cn1 Mc2 Cn1 Lo Cn5 Mc Cn4 Lo4 Mc1 Cn1 Mn6 Cn2 Mn4 Cna Lo9 Cn Lo Cn1 ",
  "Lo Cn Lo11 Cn Lo Mc2 Mn5 Cn Mc Cn1 Mc Cn Mc3 Cn Mc1 Mn Mc Mn Lo Mn Lo Po1 Cn Po1 Cn7 Mn1 Cns Lo1g Mc2 Mn7 Mc1 ",
  "Mn2 Mc Mn Lo3 Po4 Nd9 Po1 Cn Po Mn Lo2 Cnt Lo1b Mc2 Mn5 Mc Mn Mc3 Mn1 Mc Mn1 Lo1 Po Lo Cn7 Nd9 Cn4l Lo1a Mc2 ",
  "Mn3 Cn1 Mc3 Mn1 Mc Mn1 Pom Lo3 Mn1 Cnx Lo1b Mc2 Mn7 Mc1 Mn Mc Mn1 Po2 Lo Cna Nd9 Cn5 Poc Cni Lo16 Mn Mc Mn Mc1 ",
  "Mn5 Mc Mn Lo Po Cn5 Nd9 Cn5 Ndj Cnr Loq Cn1 Mn Mc Mn Mc1 Mn3 Mc Mn4 Cn3 Nd9 No1 Po2 So Lo6 Cn54 Lo17 Mc2 Mn8 ",
  "Mc Mn1 Po Cn2r Luv Llv Nd9 No8 Cnb Lo7 Cn1 Lo Cn1 Lo7 Cn Lo1 Cn Lon Mc5 Cn Mc1 Cn1 Mn1 Mc Mn Lo Mc Lo Mc Mn ",
  "Po2 Cn8 Nd9 Cn1x Lo7 Cn1 Lo12 Mc2 Mn3 Cn1 Mn1 Mc3 Mn Lo Po Lo Mc Cnq Lo Mn9 Lo13 Mn5 Mc Lo Mn3 Po7 Mn Cn7 Lo ",
  "Mn5 Mc1 Mn2 Lo19 Mnc Mc Mn1 Po2 Lo Po4 Cnc Lo20 Cn6 Po9 Cn2d Mn Mc Mn2 Mc Mn Mc Cn2f Low Po Cnd Nd9 Cn5 Lo8 Cn ",
  "Lo10 Mc Mn6 Cn Mn5 Mc Mn Lo Po4 Cn9 Nd9 Noi Cn2 Po1 Lot Cn1 Mnl Cn Mc Mn6 Mc Mn1 Mc Mn1 Cn20 Lo6 Cn Lo1 Cn ",
  "Lo11 Mn5 Cn2 Mn Cn Mn1 Cn Mn6 Lo Mn Cn7 Nd9 Cn5 Lo5 Cn Lo1 Cn Lov Mc4 Cn Mn1 Cn Mc1 Mn Mc Mn Lo Cn6 Nd9 Cn5 ",
  "Lo14 Lm Lo1 Cn3 Nd9 Cn6t Loi Mn1 Mc1 Po1 Cn6 Mn1 Lo Mc Loc Cn Lox Mc1 Mn4 Cn2 Mc1 Mn Mc Mn Poc Nd9 Mn Cn2c Lo ",
  "Cne Nok So7 Sc3 Sog Cnc Po Lopl Cn2t Nl32 Cn Po4 Cna Lo5f Cn217 Lo2o Po1 Cnc Lotr Cff Mn Lo5 Mne Cn9 Lo32y Cn4 ",
  "Log6 Cn5a0 Lot Mnb Mc2 Mn2 Nd9 Cn1c5 Lofs Cn6 Lou Cn Nd9 Cn3 Po1 Lo26 Cn Nd9 Cn5 Lot Cn1 Mn4 Po Cn9 Lo1b Mn6 ",
  "Po4 So3 Lm3 Po So Cn9 Nd9 Cn No6 Cn Lok Cn4 Loi Cnbz Lm2 Lo13 Lm1 Po2 Nd9 Cn5h Luv Llv Nom Po3 Cn4 Luo Cn1 Llo ",
  "Cn17 Lo22 Cn3 Mn Lo Mc1i Cn6 Mn3 Lmc Cn1r Lm1 Po Lm Mn Cna Mc1 Lm1 Nl2 Cn8 Lo5p1 Cn14 Lov Cn2o Lo36 Cn6po Lm3 ",
  "Cn Lm6 Cn Lm1 Cn Lo82 Cne Lo Cns Lo2 Cn1 Lo Cnd Lo3 Cn7 Loaz Cn1s3 Lo2y Cn4 Loc Cn2 Lo8 Cn6 Lo9 Cn1 So Mn1 Po ",
  "Cf3 Cn317 So6n Nd9 So2 Cn2 Soc3 Cn5 Som Cne Sof Sm Cne Mn19 Cn1 Mnm Cn8 So37 Cn1n So6t Cn9 So12 Cn1 So1n Mc1 ",
  "Mn2 So2 Mc5 Cf7 Mn7 So1 Mn6 Sot Mn3 So1o Cnk So1t Mn2 So Cn3d Noj Cnb Noj Cnb So2e Cn8 Noo Cn3q Lup Llp Lup ",
  "Ll6 Cn Llh Lup Llp Lu Cn Lu1 Cn1 Lu Cn1 Lu1 Cn1 Lu3 Cn Lu7 Ll3 Cn Ll Cn Ll6 Cn Lla Lup Llp Lu1 Cn Lu3 Cn1 Lu7 ",
  "Cn Lu6 Cn Llp Lu1 Cn Lu3 Cn Lu4 Cn Lu Cn2 Lu6 Cn Llp Lup Llp Lup Llp Lup Llp Lup Llp Lup Llp Lup Llr Cn1 Luo ",
  "Sm Llo Sm Ll5 Luo Sm Llo Sm Ll5 Luo Sm Llo Sm Ll5 Luo Sm Llo Sm Ll5 Luo Sm Llo Sm Ll5 Lu Ll Cn1 Nd1d Soe7 Mn1i ",
  "So3 Mn1d So7 Mn Sod Mn So1 Po4 Cne Mn4 Cn Mne Cnun Ll9 Lo Llj Cn5 Ll5 Cn5w Mn6 Cn Mng Cn1 Mn6 Cn Mn1 Cn Mn4 ",
  "Cn4 Lm1p Cnw Mn Cn33 Lo18 Cn2 Mn6 Lm6 Cn1 Nd9 Cn3 Lo So Cn8v Lot Mn Cng Lo17 Mn3 Nd9 Cn4 Sc Cncv Loq Lm Mn3 ",
  "Nd9 Cn5x Lot Mn1 Lo Nd9 Cn3 Po Cn5b Lou Cn Lo2 Mn Lo1 Mn Lo6 Mn1 Lo4 Mn Cn7 Lo Lm Cn67 Lo6 Cn Lo3 Cn Lo1 Cn ",
  "Loe Cn Lo5g Cn1 No8 Mn6 Cn14 Lux Llx Mn6 Lm Cn3 Nd9 Cn3 Po1 Cnls No1m So No2 Sc No3 Cn23 No18 So Noe Cn5d Lo3 ",
  "Cn Loq Cn Lo1 Cn Lo Cn1 Lo Cn Lo9 Cn Lo3 Cn Lo Cn Lo Cn5 Lo Cn3 Lo Cn Lo Cn Lo Cn Lo2 Cn Lo1 Cn Lo Cn1 Lo Cn ",
  "Lo Cn Lo Cn Lo Cn Lo Cn Lo1 Cn Lo Cn1 Lo3 Cn Lo6 Cn Lo3 Cn Lo3 Cn Lo Cn Lo9 Cn Log Cn4 Lo2 Cn Lo4 Cn Log Cn1f ",
  "Sm1 Cn7h So17 Cn3 So2r Cnb Soe Cn1 Soe Cn Soe Cn So10 Cn9 Noc So4g Cn1j Sos Cnc So17 Cn3 So8 Cn6 So1 Cnd So5 ",
  "Cn49 So6y Sk4 Sok8 Cn2 Sog Cn2 Soc Cn2 So61 Cn5 Sob Cn3 So Cne Sob Cn3 So1j Cn7 So9 Cn5 So13 Cn7 Sot Cn1 Sob ",
  "Cn3 So1 Cnd Sm8 Cn12 So9j Cn7 Sod Cn1 Soc Cn2 Soa Cn2 So1k Cn So Cn3 Sof Cn1 Sob Cn3 So9 Cn6 So42 Cn So2j Nd9 ",
  "So Cnsk Lowyn Cnv Lo3dp Cn1 Lo4gd Cn1 Lo5rk Cne Loh9 Cn1wh Lof1 Cn15t Lo3t6 Cn4 Lo6jt Cnf5vq Cf Cnt Cf2n Cn3j ",
  "Mn6n Cn1e6n Co1ekd Cn1 Co1ekd Cn1"]

/-- The runs of one category: the category, the first character and the last one. -/
def categoryRuns : List (String × Nat × Nat) :=
  let runs := (words categoryTable).foldl (fun (done, next) w =>
    let more := number (w.drop 2)
    ((String.ofList (w.take 2), next, next + more) :: done, next + more + 1)) (([] : List (String × Nat × Nat)), 0)
  runs.1.reverse

/-- The characters of any of the categories. -/
def ofCategories (categories : List String) : CharSet :=
  .ofRanges (categoryRuns.filterMap fun (c, range) => if categories.contains c then some range else none)

end ScriptHost.Unicode
