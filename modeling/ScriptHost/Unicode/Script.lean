import ScriptHost.Unicode.CharSet

/-!
# Scripts

The characters of every script, and those that belong to other scripts or to several but are used with it.  A row
holds the names of the script in lower case, and two tables of ranges.
-/

namespace ScriptHost.Unicode

/-- The scripts. -/
private def scriptTable : List (String × String × String) := [
  ("adlm adlam", "2olc.23 5.9 5.1", "17j x 55b 2r6"),
  ("aghb caucasianalbanian", "1flc.1f c", "lg 19 19"),
  ("ahom", "1j40.q 3.e 5.m", ""),
  ("arab arabic",
    String.join [
    "16o.4 2.5 2.d 2.2 2.v 2.9 c.p 2.2z 2.x 29.1b 6p.x 6.22 2.s 1bv5.dp 3.3z x.f 35.4 2.3q 31g.u 1w.5 9.8 y.5 ",
    "181t.3 2.q 2.1 2 3 2.9 2.3 2 2 7 5 2 2 2.2 2.1 2 3 2 2 2 2 2.1 2 3.3 2.6 2.3 2.3 2 2.9 2.g 6.2 2.4 2.g 1h.1"],
    "170 f 4 x b.a r 53z 2r6 14vx.1 141.r"),
  ("armi imperialaramaic", "1g74.l 2.8", ""),
  ("armn armenian", "10x.11 3.1d 3.2 1chw.4", "lk"),
  ("avst avestan", "1gqo.1h 4.6", "53 8zd.1"),
  ("bali balinese", "5c0.24 2.1d", ""),
  ("bamu bamum", "www.2f 124p.fs", ""),
  ("bass bassavah", "1zo0.t 3.5", ""),
  ("batk batak", "5hc.1f 9.3", ""),
  ("beng bengali",
    "1vk.3 2.7 3.1 3.l 2.6 2 4.3 3.8 3.1 3.3 9 5.1 2.4 3.o",
    "jg 1at.1 i.1 3u3 2 3.1 2 9 9 3 5 3.2 rne"),
  ("bhks bhaiksuki", "1k3k.8 2.18 2.d b.s", ""),
  ("bopo bopomofo", "kq.1 93u.16 35.v", "jr 2.2 e 8x4.2 5.9 2.c b.3 3 7 5g 14ju.1 7v.4"),
  ("brah brahmi", "1hq8.25 5.z a", ""),
  ("brai braille", "7wg.73", ""),
  ("bugi buginese", "54w.r 3.1", "xjj"),
  ("buhd buhid", "4lc.j", "4l1.1"),
  ("cakm chakma", "1hxc.1g 2.h", "1ye.9 18x.9"),
  ("cans canadianaboriginal", "3y8.hr fl.1x 1ewr.f", ""),
  ("cari carian", "1f34.1c", "53 68z 3 2qc"),
  ("cham", "xkw.1i a.d 3.9 3.3", ""),
  ("cher cherokee", "3vk.2d 3.5 twz.27", "lc.2 2 7.1 n.1 c.1"),
  ("chrs chorasmian", "1ho0.r", ""),
  ("copt coptic qaac", "rm.d 80h.37 6.6", "53 g9 4.1 2 31.1 8f6 1615.r"),
  ("cpmn cyprominoan", "1nyo.2q", "1erk.1"),
  ("cprt cypriot", "1g5c.5 3 2.17 2.1 4 3", "1erk.2 5.18 4.8"),
  ("cyrl cyrillic", "sg.3o 3.4o 4lt.a 4h 25 38o.v nr5.2n han.1 18n5.1p y", "jg 1w.2 2 2 2 3 6 ac.1 50y 37v"),
  ("deva devanagari", "1s0.28 5.e 3.p vhd.v mip.9", "jg 1at.1 i.1 3u3.12 2.1 s7 qps.9"),
  ("diak divesakuru", "1ji8.6 3 3.7 2.1 2.t 2.1 3.b a.9", ""),
  ("dogr dogra", "1jb4.1n", "1us.b vcx.9"),
  ("dsrt deseret", "1fcw.27", ""),
  ("dupl duployan", "2fpc.2y 6.c 4.8 8.9 3.3", "53 gg.1 2 p.1 8ig 26p0.3"),
  ("egyp egyptianhieroglyphs", "1o1s.ut b.32y", ""),
  ("elba elbasan", "1fk0.13", "53 ge"),
  ("elym elymaic", "1hpc.m", ""),
  ("ethi ethiopic",
    String.join [
    "3k0.20 2.3 3.6 2 2.3 3.14 2.3 3.w 2.3 3.6 2 2.3 3.e 2.1k 2.3 3.1u 3.v 4.p 547.m a.6 2.6 2.6 2.6 2.6 2.6 2.6 ",
    "2.6 opv.5 3.5 3.5 a.6 2.6 1qk2.6 2.3 2.1 2.e"],
    "lq"),
  ("geor georgian", "3a8.11 2 6 3.16 2.3 2a9.16 3.2 37l.11 2 6", "53 ya 29e 31b 2qf"),
  ("glag glagolitic", "8ow.2n 2e1t.6 2.g 3.6 2.1 2.4", "53 gc 2 an 3 76 29e 31b 2qx nqk"),
  ("gong gunjalagondi", "1kdc.5 2.1 2.10 2.1 2.5 8.9", "53 1pp.1"),
  ("gonm masaramgondi", "1kao.6 2.1 2.17 4 2.1 2.8 9.9", "1us.1"),
  ("goth gothic", "1f74.q", "53 gd.1 3 15"),
  ("gran grantha",
    "1ibk.3 2.7 3.1 3.l 2.6 2.1 2.4 3.8 3.1 3.2 3 7 6.6 3.6 4.4",
    "1u9.1 i.1 ht.d 3bx 2.1 v.2 4.1 s7 1buz 2hh.1 2"),
  ("grek greek",
    String.join [
    "og.3 2.2 3.3 2 5 2 2.2 2 2.j 2.1q f.f 4yv.4 1f.4 5.4 2d 8x.l 3.5 3.11 3.5 3.7 2 2 2 2.u 3.1g 2.e 2.d 3.5 2.i ",
    "3.2 2.8 88 rb3 gyj.26 i 155s.1x"],
    "53 g9.1 3 2 2 b 1b 3 1b 570.1 ik"),
  ("gujr gujarati", "22p.2 2.8 2.2 2.l 2.6 2.1 2.4 3.9 2.2 2.2 3 g.3 3.b 8.6", "1u9.1 i.1 vd7.9"),
  ("guru gurmukhi", "1z5.2 2.5 5.1 3.l 2.6 2.1 2.1 2.1 3 2.4 5.1 3.2 4 8.3 2 8.g", "1u9.1 i.1 vd7.9"),
  ("hang hangul",
    "3cw.73 5yn.1 76.2l 36.u 1u.u nhe.s hw.8mb d.m 5.1c 7tx.u 4.5 3.5 3.5 3.2",
    "9hd.2 5.9 2.c h 7 5g 14ju.1 7v.4"),
  ("hani han",
    String.join [
    "96o.p 2.2g d.5x 1c 2 q.8 f.3 qt.533 1t.g73 hkx.a5 3.2x n49.1 d.6 sga.wyn x.3dp 3.4gd 3.5rk g.h9 1wj.f1 ",
    "15v.3t6 6.6jt"],
    String.join [
    "53 9bt.f 2.2 3 2.9 2.c b.3 3 7 5.3 58 45.f x.11 a 1d.13 1l.1c g.b 1g 2h.o b.4 2p.u mpu.7 h8e.1 7v.4 15vf.h ",
    "63j.1"]),
  ("hano hanunoo", "4kg.k", "4l1.1"),
  ("hatr hatran", "1gbk.i 2.1 6.4", ""),
  ("hebr hebrew", "13l.1i 9.q 5.5 1cfd.p 2.4 2 2.1 2.1 2.9", "lj.1"),
  ("hira hiragana", "9j5.2d 7.2 23qa.7y j u.2 cry", "9hd.2 5.9 2.c h.5 2 5.1 2k.3 4 2j.1 14jt.1 7v.4 b 1a.1"),
  ("hluw anatolianhieroglyphs", "1s00.g6", ""),
  ("hmng pahawhhmong", "1zpc.1x b.9 2.6 2.k 6.i", ""),
  ("hmnp nyiakengpuachuehmong", "2n0g.18 4.d 3.9 5.1", ""),
  ("hung oldhungarian", "1h1c.1e e.1e 8.5", "6e2 3 2qc g"),
  ("ital olditalic", "1f5s.z a.2", ""),
  ("java javanese", "xhc.25 3.9 5.1", "xjj"),
  ("kali kayahli", "xds.19 2", "xf2"),
  ("kana katakana",
    "9lt.2h 3.2 6p.f 5t.1a 2.2f 14b3.9 2.18 ytv.3 2.6 2.1 2 80.2 1f f.3",
    "lh u 8v2.2 5.9 2.c h.5 2 5.1 2k.3 4 2j.1 14jt.1 7v.4 b 1a.1"),
  ("kawi", "1kow.g 2.14 4.s", ""),
  ("khar kharoshthi", "1gjk.3 2.1 6.7 2.2 2.s 3.2 5.9 8.8", ""),
  ("khmr khmer", "4n4.2l 3.9 7.9 dj.v", ""),
  ("khoj khojki", "1i4g.h 2.1a", "25i.9 v29.9"),
  ("kits khitansmallscript", "20o4 5cs.d1 16", ""),
  ("knda kannada", "2gw.c 2.2 2.m 2.9 2.4 3.8 2.2 2.3 8.1 6.2 2.3 3.9 2.2", "1u9.1 i.1 3u3 2.1 7 o 2 ri4.5"),
  ("kthi kaithi", "1hts.1u b", "1uu.9 79e o3j.9"),
  ("lana taitham", "55s.1q 2.s 3.a 7.9 7.d", ""),
  ("laoo lao", "2v5.1 2 2.4 2.n 2 2.m 3.4 2 2.6 2.9 3.3", ""),
  ("latn latin",
    String.join [
    "1t.p 7.p 1c g 6.m 2.u 2.cg 14.4 55o.11 7.1c 6.3 6.c 2.1x 1u.73 aa e h.c 3y.1 7 s i.14 254.v o83.2t 4.29 l.e ",
    "mp.16 2.8 2.3 fpz.6 t7.p 7.p 1ly.5 2.15 2.8 16iu.u 7.5"],
    "53 ed b 2.2 2 a 2 13.e 2.1 2 g.2 8.1 2.1 13 6 5.c 7q.1 y3.1 1ih 2kd fr 5d 2lj nvt.7 fb"),
  ("lepc lepcha", "5j4.1j 4.e 4.2", ""),
  ("limb limbu", "4xs.u 2.b 5.b 5 4.b", "1ut"),
  ("lina lineara", "1fr4.8m a.l b.7", "1err.18"),
  ("linb linearb", "1ekg.b 2.p 2.i 2.1 2.e 3.d z.3e", "1erk.2 5.18 4.8"),
  ("lisu", "wk0.1b o8h", "jg h 8xp.1"),
  ("lyci lycian", "1f28.s", "6e2"),
  ("lydi lydian", "1gdc.p 6", "53 8ze"),
  ("mahj mahajani", "1hzk.12", "53 1pp.b vcx.9"),
  ("maka makasar", "1ko0.o", ""),
  ("mand mandaic", "1mo.r 3", "18g"),
  ("mani manichaean", "1gow.12 5.b", "18g"),
  ("marc marchen", "1k6o.v 3.l 2.d", ""),
  ("medf medefaidrin", "20cg.2i", ""),
  ("mend mendekikakui", "2oe8.5g 3.f", ""),
  ("merc meroiticcursive", "1ggw.n 5.j 3.19", ""),
  ("mero meroitichieroglyphs", "1gg0.v", "6e5"),
  ("mlym malayalam", "2kg.c 2.2 2.1e 2.2 2.5 5.f 3.p", "1u9.1 i.1 3ud o ri6.2"),
  ("modi", "1iww.1w c.9", "x80.9"),
  ("mong mongolian", "4qo.1 3 2.j 7.2g 8.16 1e46.c", "4qq.1 2 1m2 34i.1 6.3"),
  ("mroo mro", "1zk0.u 2.9 5.1", ""),
  ("mtei meeteimayek", "xr4.m 5m.19 3.9", ""),
  ("mult multani", "1i80.6 2 2.3 2.e 2.a", "21y.9"),
  ("mymr myanmar", "35s.4f u9t.u 2q.v le9.j", "xf2"),
  ("nagm nagmundari", "2nrk.15", ""),
  ("nand nandinagari", "1jmo.7 3.19 3.a", "1u9 j.1 ox.9 35m 9 8 rhy.5"),
  ("narb oldnortharabian", "1gn4.v", ""),
  ("nbat nabataean", "1g8w.u 9.8", ""),
  ("newa", "1iio.2j 2.4", "1u9.1 3ur 2.1 a 7 2 2"),
  ("nkoo nko", "1j4.1m 3.2", "170 f 4 1ctb.1"),
  ("nshu nushu", "20o1 cy7.az", ""),
  ("ogam ogham", "4g0.s", ""),
  ("olck olchiki", "5lc.1b", ""),
  ("orkh oldturkic", "1gxs.20", "6e2 2qe"),
  ("orya oriya", "269.2 2.7 3.1 3.l 2.6 2.1 2.4 3.8 3.1 3.2 8.2 5.1 2.4 3.h", "1u9.1 i.1 3ud o"),
  ("osge osage", "1fhs.z 5.z", "ld 3 7 25"),
  ("osma osmanya", "1fgg.t 3.9", ""),
  ("ougr olduyghur", "1hm8.p", "18g 1fhu"),
  ("palm palmyrene", "1g80.v", ""),
  ("pauc paucinhau", "1juo.1k", ""),
  ("perm oldpermic", "1f80.16", "53 g9 6.2 b a8"),
  ("phag phagspa", "x8g.1j", "4qq.1 2 1m2 34j"),
  ("phli inscriptionalpahlavi", "1gtc.i 6.7", ""),
  ("phlp psalterpahlavi", "1gu8.h 8.3 d.6", "18g"),
  ("phnx phoenician", "1gcg.r 4", ""),
  ("plrd miao", "20hs.22 5.1k 8.g", ""),
  ("prti inscriptionalparthian", "1gsg.l 3.7", ""),
  ("rjng rejang", "xf4.z c", ""),
  ("rohg hanifirohingya", "1h4w.13 9.9", "170 f 4 x 44"),
  ("runr runic", "4gw.22 4.a", "4iz.2"),
  ("samr samaritan", "1kw.19 3.e", "94h"),
  ("sarb oldsoutharabian", "1gm8.v", ""),
  ("saur saurashtra", "xa8.1x 9.b", ""),
  ("sgnw signwriting", "2l8g.i3 g.4 2.e", ""),
  ("shaw shavian", "1ff4.1b", "53"),
  ("shrd sharada", "1i0w.2n 1vl.7", "1u9 3uu 2 3.1 3 a 3 rib.5 3"),
  ("sidd siddham", "1itc.1h 3.11", ""),
  ("sind khudawadi", "1i9c.1m 6.9", "1us.1 vd7.9"),
  ("sinh sinhala", "2o1.2 2.h 4.n 2.8 2 3.6 4 5.5 2 2.7 7.9 3.2 1fcd.j", "1us.1 3v1"),
  ("sogd sogdian", "1hkg.15", "18g"),
  ("sogo oldsogdian", "1hj4.13", ""),
  ("sora sorasompeng", "1hw0.o 8.9", ""),
  ("soyo soyombo", "1jrk.2a", ""),
  ("sund sundanese", "5fk.1r 75.7", ""),
  ("sylo sylotinagri", "x6o.18", "1us.1 3l.9"),
  ("syrc syriac", "1ds.d 2.1n 3.2 7l.a", "lf.1 3.1 2 p.2 8.1 2.1 kb f.1 3 x b.a r 4nc 2"),
  ("tagb tagbanwa", "4m8.c 2.2 2.1", "4l1.1"),
  ("takr takri", "1j0g.1l 7.9", "1us.1 vd7.9"),
  ("tale taile", "500.t 3.4", "lc.1 6.1 4 2lw.9"),
  ("talu newtailue", "51c.17 5.p 7.a 4.1", ""),
  ("taml tamil",
    "29u.1 2.5 4.2 2.3 4.1 2 2.1 4.1 4.2 4.b 5.4 4.2 2.3 3 7 f.k 1ih2.1d e",
    "1u9.1 i.1 3ud ro9 ky6 2 1k.1"),
  ("tang tangut", "20o0 w.5bz e9.u 2q.36", "9gw.f ds"),
  ("tavt taiviet", "xog.1u p.4", ""),
  ("telu telugu", "2dc.c 2.2 2.m 2.f 3.8 2.2 2.3 8.1 2.2 2.1 3.3 3.9 8.8", "1u9.1 i.1 3u8.1 2 2 o"),
  ("tfng tifinagh", "8xc.1j 8.1 f", "le 2 2.3 q"),
  ("tglg tagalog", "4jk.l a", "4l1.1"),
  ("thaa thaana", "1hc.1d", "170 f.1 3 1t.9 1cw9 b"),
  ("thai", "2rl.1l 6.r", "jg r 18 1a"),
  ("tibt tibetan", "2yo.1z 2.z 5.12 2.z 2.e 2.6 5.1", "9hk.3"),
  ("tirh tirhuta", "1im8.1z 9.9", "1u9.1 i.1 3u8 d g ri6.9"),
  ("tnsa tangsa", "1zlc.26 2.9", ""),
  ("toto", "2nbk.u", "jg"),
  ("ugar ugaritic", "1f9c.t 2", ""),
  ("vaii vai", "wlc.8b", ""),
  ("vith vithkuqi", "1fn4.a 2.e 2.6 2.1 2.a 2.e 2.6 2.1", ""),
  ("wara warangciti", "1jfk.2a d", ""),
  ("wcho wancho", "2ncw.1l 6", ""),
  ("xpeo oldpersian", "1fa8.z 5.d", ""),
  ("xsux cuneiform", "1kw0.pl 2v.32 2.4 c.5f", ""),
  ("yezi yezidi", "1hfk.15 2.2 3.1", "170 f 4 1t.9"),
  ("yiii yi", "vls.wc 4.1i", "9hd.1 6.9 3.7 68 14rq.4"),
  ("zanb zanabazarsquare", "1jpc.1z", ""),
  ("zinh inherited qaai",
    String.join [
    "lc.33 7q.1 cl.a r kh.3 3fg.19 3.b dh.2 2.c 2.6 5 7 4.1 5j.1r el.1 5f.w 30a.3 30.1 14km.f h.d r4 6b 38b ",
    "1139.19 3.m f5.2 i.7 3.6 v.3 h45v.6n"],
    String.join [
    ]),
  ("zyyy common",
    String.join [
    "0.1s r.5 r.1a 2.e 2.4 o w ci.12 6.4 3.j 39 a 7 2 hq 7 f 4 x 4d ed 3m.1 yi ba.3 83 168.2 20.1 5o.1 2 y6 e 8.3 ",
    "2.5 2.2 3 li.b 3.2e 2.a 4.a 2.e i.x 1r.11 2.2 3.5 2.q 2.g 16.2 5.ih n.a m.pr 75.hf 3.3t e9.2l b7.k 2 2.o g.7 ",
    "5.3 2k.1 4 2j.1 44.f x.11 a 1d.1r w.28 1c 2h.4n 535.1r hkx.x 2v.2 4m.9 6t 4h b0 f.1 g5v.1 5t.9 n.y 2.i 2.3 ",
    "44 2.v r.5 r.a b 1a.1 1t.6 2.6 b.4 77.2 5.18 4.8 29.c 1g.18 6d.q 10o5.3 319.70 4.c3 7.m g.g 2o.37 1p.6t b.12 ",
    "3.1p 4.g 9.1 8.t 5.1o 5y.j d.j d.2e a.o 3s.2c 2.1y 2.1 3 3.1 3.3 2.b 2 2.6 2.1s 2.3 3.7 2.6 2.r 2.3 2.4 2 ",
    "4.6 2.9f 3.83 3.1d 41e.1v 25.1o jn.17 5.2r d.e 3.e 2.e 2.10 b.4t 1l.p 2.1 e.17 5.8 8.1 f.5 4b.rc 4.g 4.c ",
    "4.61 7.b 5 g.b 5.1j 9.9 7.13 9.t 3.b 5.1 f.8 14.9j 9.d 3.c 4.a 4.1k 2 5.f 3.b 5.9 8.42 2.2u gvlz v.2n"],
    String.join [
    ]),
  ("gara garay", "1h6o.11 4.s 9.1", "170 f 4"),
  ("gukh gurungkhema", "1xq8.1l", "1ut"),
  ("krai kiratrai", "205c.1l", ""),
  ("onao olonal", "2nyo.16 5", "1us.1"),
  ("sunu sunuwar", "1k1s.x f.9", "lc.1 2 a 3 t 4"),
  ("todr todhri", "1fpc.1f", "ld 3 3 a 2 23"),
  ("tutg tulutigalari", "1if4.9 2 3 2.11 2.9 2 3 2.3 2.9 2.1 9.1", "2jq.9 35v 2 ri4.5 58"),
  ("sidt sidetic", "1ge8.p", ""),
  ("tayo taiyo", "2o5c.u 2.l 9.1", ""),
  ("berf beriaerfe", "20f4.o 3.o", ""),
  ("tols tolongsiki", "1kfk.17 5.9", "")]

/-- The tables of the script with a name. -/
private def scriptRow? (name : String) : Option (String × String) :=
  (scriptTable.find? fun (names, _) => (words names).contains name.toList).map Prod.snd

/-- The characters of a script. -/
def script? (name : String) : Option CharSet := (scriptRow? name).map fun (own, _) => .ofTable own

/-- The characters that are used with some script to which they do not belong. -/
private def shared : CharSet := .ofRanges (scriptTable.flatMap fun (_, _, others) => CharSet.ofTable others)

/-- The characters that are used with a script. -/
def scriptExtension? (name : String) : Option CharSet :=
  (scriptRow? name).map fun (own, others) =>
    if ["common", "zyyy", "inherited", "zinh", "qaai"].contains name then (CharSet.ofTable own).difference shared
    else (CharSet.ofTable own).union (.ofTable others)

end ScriptHost.Unicode
